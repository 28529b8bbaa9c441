import DocQuery.Proofs.Json.Print

/-!
# What the key of a value tells

Two ids are those of one document, and two values count as one, if their keys are the same text. A
key is a text like any other that a document may hold, with the same quotes, brackets and commas,
and numbers of both types stand in it side by side. Still nothing is lost in it but what is not
finite, which is written as null.

* `Value.key_eq_iff_toJson` – for all values, the key says as much as the tree;
* `Value.key_eq_iff` – **finite values with the same key are the same value.**
-/

namespace DocQuery.Value

variable {v w : Value}

/-- The key of a value tells its tree. -/
theorem key_eq_iff_toJson (hv : v.isOrdered = true) (hw : w.isOrdered = true) :
    v.key = w.key ↔ v.toJson = w.toJson :=
  ⟨Json.render_inj (isData_toJson_of_isOrdered v hv) (isData_toJson_of_isOrdered w hw),
    congrArg Json.render⟩

/-- **Values with the same key are identical**: of the same type, with the same booleans, integers,
strings and names, and with floating-point numbers that also agree in the sign of zero. The values
have no infinity and no not-a-number in them, and the members of objects stand in order, as they do
in every value. -/
theorem key_eq_iff (hv : v.isData = true) (hw : w.isData = true) : v.key = w.key ↔ v = w :=
  ⟨key_inj hv hw, congrArg key⟩

/-- Quotes and commas inside a string are told from those around it, an integer from the
floating-point number of its size, and the zeros from each other. -/
theorem key_eq_iff_lookalikes :
    (array [.string "a\",\"b"]).isData = true ∧ (array [.string "a", .string "b"]).isData = true ∧
    (array [.string "a\",\"b"]).key ≠ (array [.string "a", .string "b"]).key ∧
    (int 3).key ≠ (float (Binary.ofInt 3)).key ∧
    (float (.zero false)).key ≠ (float (.zero true)).key := by
  have three : (float (Binary.ofInt 3)).isData = true := by decide +kernel
  have zero (negative : Bool) : (float (.zero negative)).isData = true := by
    cases negative <;> decide
  refine ⟨rfl, rfl, (key_eq_iff rfl rfl).not.mpr ?_, (key_eq_iff rfl three).not.mpr nofun,
    (key_eq_iff (zero false) (zero true)).not.mpr ?_⟩
  · simp
  · exact fun same => absurd (float.inj same) (by decide)

/-- What is not finite has the key of null. -/
example : (float .nan).key = null.key := rfl

end DocQuery.Value
