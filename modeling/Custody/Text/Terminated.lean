namespace Custody.Text

/-!
# Text for a host that ends strings at NUL

The host reads a string up to its first NUL character, so text that contains one cannot be
handed over whole.

* `nulOffset?` -- where the first NUL stands, in bytes of UTF-8.
-/

/-- The number of bytes before the first NUL, if there is one. -/
def nulOffset? : List Char → Option Nat
  | [] => none
  | c :: rest => if c = '\x00' then some 0 else (nulOffset? rest).map (· + c.utf8Size)

/-- A text in which no NUL is found has none. -/
theorem nulOffset?_eq_none_iff {cs : List Char} : nulOffset? cs = none ↔ '\x00' ∉ cs := by
  induction cs with
  | nil => simp [nulOffset?]
  | cons c rest ih =>
    by_cases h : c = '\x00'
    · simp [nulOffset?, h]
    · simp [nulOffset?, h, ih, Ne.symm h]

end Custody.Text
