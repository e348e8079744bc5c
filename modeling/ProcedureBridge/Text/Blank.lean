/-! # Blank space

The characters with the Unicode property `White_Space`, and trimming by them. -/

namespace ProcedureBridge.Text

def isBlank (c : Char) : Bool :=
  let n := c.toNat
  (9 ≤ n && n ≤ 13) || n == 0x20 || n == 0x85 || n == 0xA0 || n == 0x1680 ||
  (0x2000 ≤ n && n ≤ 0x200A) || n == 0x2028 || n == 0x2029 || n == 0x202F || n == 0x205F ||
  n == 0x3000

def trimStart (cs : List Char) : List Char := cs.dropWhile isBlank

def trimEnd (cs : List Char) : List Char := (cs.reverse.dropWhile isBlank).reverse

/-- Removes `lead` from the front as often as it occurs there. -/
def dropLeads (lead : List Char) (cs : List Char) : List Char :=
  if _ : lead ≠ [] ∧ lead.isPrefixOf cs then dropLeads lead (cs.drop lead.length) else cs
termination_by cs.length
decreasing_by
  rename_i h
  have hp := List.isPrefixOf_iff_prefix.1 h.2
  have hl := hp.length_le
  have := List.length_pos_iff.2 h.1
  simp only [List.length_drop]
  omega

/-- The text before the first occurrence of `part`, and the text from there on. -/
def splitAt? (part : List Char) : List Char → Option (List Char × List Char)
  | [] => if part.isEmpty then some ([], []) else none
  | c :: cs =>
    if part.isPrefixOf (c :: cs) then some ([], c :: cs)
    else (splitAt? part cs).map fun (before, after) => (c :: before, after)

end ProcedureBridge.Text
