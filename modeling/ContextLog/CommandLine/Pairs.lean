import ContextLog.CommandLine.Parser
import ContextLog.Fields.Basic
import ContextLog.Text.Quoted
/-!
# Fields on the command line

A field is given as `KEY=VALUE`: the key is what stands before the first equals sign, and it is not
empty. A key that is given again takes the later value in the place of the first.
-/

namespace ContextLog.CommandLine

/-- The parts of a text before and behind its first equals sign. -/
def splitAtEquals (cs : List Char) : List Char × Option (List Char) :=
  match cs.dropWhile (· ≠ '=') with
  | [] => (cs, none)
  | _ :: value => (cs.takeWhile (· ≠ '='), some value)

/-- The key and the value of a pair. -/
def readPair (pair : String) : Except UsageFault (String × String) :=
  match splitAtEquals pair.toList with
  | ([], _) | (_, none) =>
    .error (.badParameter ("expected KEY=VALUE, got " ++ Text.quoted pair) (some "--field"))
  | (key, some value) => .ok (String.ofList key, String.ofList value)

/-- The fields of a list of pairs. -/
def readPairs (pairs : List String) : Except UsageFault Fields := do
  let read ← pairs.mapM readPair
  return .ofList (read.map fun (k, v) => (.str k, .str v))

end ContextLog.CommandLine
