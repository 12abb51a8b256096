/-!
# Blanks

The characters that separate tokens and belong to none: those with the
Unicode property White_Space. The information separators U+001C to U+001F are
not among them.
-/

namespace TokenStream

/-- The characters with the property White_Space, in ascending order. -/
def blanks : List Char :=
  ['\x09', '\x0A', '\x0B', '\x0C', '\x0D', ' ', '\x85', '\xA0', '\u1680',
   '\u2000', '\u2001', '\u2002', '\u2003', '\u2004', '\u2005', '\u2006', '\u2007',
   '\u2008', '\u2009', '\u200A', '\u2028', '\u2029', '\u202F', '\u205F', '\u3000']

/-- Does the character separate tokens? -/
def isBlank (c : Char) : Bool := blanks.contains c

theorem isBlank_iff {c : Char} : isBlank c = true ↔ c ∈ blanks := by
  simp [isBlank]

end TokenStream
