import EntitySearch.Json.Basic
import EntitySearch.Proofs.Number.Rounding

/-!
# Numbers of a document are finite doubles

The integers of a JSON document have at most sixty-five bits, so rounding one to a double does not get
near infinity (`JsonNumber.isFinite_toBinary64`).
-/

namespace EntitySearch

theorem Binary64.isFinite_ofInt {i : Int} (h : i.natAbs < 2 ^ 65) : (ofInt i).isFinite := by
  have hbound : (i.natAbs : ℚ) < 2 ^ (65 : ℤ) := mod_cast h
  refine isFinite_ofRatio _ Nat.one_pos ?_
  rw [Nat.cast_one, div_one]
  exact hbound.trans_le (zpow_le_zpow_right₀ one_le_two (by decide))

namespace JsonNumber

theorem isFinite_toBinary64 (n : JsonNumber) : n.toBinary64.isFinite := by
  cases n with
  | int value lower upper => exact Binary64.isFinite_ofInt (by omega)
  | float value finite => exact finite

def toDouble (n : JsonNumber) : JsonNumber := .float n.toBinary64 n.isFinite_toBinary64

end JsonNumber

end EntitySearch
