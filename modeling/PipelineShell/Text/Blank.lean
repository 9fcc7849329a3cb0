/-!
# Blank characters

The characters that separate words: those with the Unicode property `White_Space`.
-/

namespace PipelineShell

def isBlank (c : Char) : Bool :=
  let n := c.toNat
  (0x09 ≤ n && n ≤ 0x0d) || n == 0x20 || n == 0x85 || n == 0xa0 || n == 0x1680 ||
    (0x2000 ≤ n && n ≤ 0x200a) || n == 0x2028 || n == 0x2029 || n == 0x202f || n == 0x205f ||
    n == 0x3000

/-- The no-break spaces are blanks, the zero-width space and the byte order mark are not. -/
example :
    isBlank '\u00a0' ∧ isBlank '\u202f' ∧ isBlank '\u200b' = false ∧ isBlank '\ufeff' = false := by
  decide

end PipelineShell
