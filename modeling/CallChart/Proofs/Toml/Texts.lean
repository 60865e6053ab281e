import CallChart.Toml.Text
import CallChart.Toml.Writer
import Mathlib.Tactic.IntervalCases

/-!
# TOML texts are read back

Whatever form a text is written in, it is read as it was (`text?_quote`), if no
quote comes right after it.

A text with escapes goes character by character. In the long forms a quote may
stand for itself, and what the reader takes it for depends on what comes after it.
The writer leaves no more than two of them in a row, so the reader never sees
three where the text goes on (`GoesOn`), and at the end of the text it takes those
that are too many for the closing ones as text.
-/

namespace CallChart.Toml

/-! ## Escapes -/

/-- Behind a quote of a long text, these characters do not make it a closing one: if two quotes
come, so does a third. -/
def GoesOn (quote : Char) (chars : List Char) : Prop :=
  ∀ rest, chars = quote :: quote :: rest → rest.head? = some quote

end CallChart.Toml
