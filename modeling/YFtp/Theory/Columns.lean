import Mathlib.Data.List.Basic

/-!
# Columns — records of fields of fixed widths

A record is its fields, one behind the other, and it is read by cutting it where the columns end.
-/

namespace YFtp.Theory

variable {α : Type}

/-- The fields of a record with columns of these widths, and what follows them. -/
def cutColumns : List Nat → List α → List (List α)
  | [], text => [text]
  | w :: ws, text => text.take w :: cutColumns ws (text.drop w)

/-- Fields that fill their columns are found in them. -/
theorem cutColumns_flatten {widths : List Nat} {fields : List (List α)}
    (h : List.Forall₂ (fun w field ↦ field.length = w) widths fields) (rest : List α) :
    cutColumns widths (fields.flatten ++ rest) = fields ++ [rest] := by
  induction h with
  | nil => rfl
  | cons hlength _ ih =>
    rw [cutColumns, List.flatten_cons, List.append_assoc, List.take_left' hlength,
      List.drop_left' hlength, ih]
    rfl

end YFtp.Theory
