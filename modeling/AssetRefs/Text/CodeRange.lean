/-! # Sets of characters given by code ranges

A property of characters from a standard is a table of closed ranges of code points in increasing
order. Membership is looked up by halving.
-/

namespace AssetRefs.Text

/-- A closed range of code points. -/
abbrev CodeRange := Nat × Nat

/-- Looks `code` up among the ranges at `low` to `high - 1`, in at most `steps` halvings. -/
def CodeRange.search (table : Array CodeRange) (code : Nat) : (steps low high : Nat) → Bool
  | 0, _, _ => false
  | steps + 1, low, high =>
    if low < high then
      let middle := (low + high) / 2
      match table[middle]? with
      | none => false
      | some range =>
        if code < range.1 then search table code steps low middle
        else if range.2 < code then search table code steps (middle + 1) high
        else true
    else false

/-- Whether a range of the table holds the character. -/
def CodeRange.covers (table : Array CodeRange) (c : Char) : Bool :=
  search table c.toNat (table.size + 1) 0 table.size

end AssetRefs.Text
