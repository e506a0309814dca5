import ContextLog.Fields.Basic
/-!
# Fields in the order of their keys

Entries are sorted as pairs of a key and a value, so their values count only where keys are the same:
the longest run at the start that is already in order, or in falling order, is kept, and every further
entry is put into its place by halving. Entries without an order between them are refused at the first
comparison that meets two of them.
-/

namespace ContextLog.Fields

/-- An entry of a mapping. -/
abbrev FieldEntry := Value × Value

/-- Does the first of two entries stand before the second? Or have they no order? -/
abbrev EntryOrder := FieldEntry → FieldEntry → Except Value.Unordered Bool

/-- The order of entries as pairs. -/
def pairLess : EntryOrder := fun a b => (Value.tuple [a.1, a.2]).less (.tuple [b.1, b.2])

/-- Continues a run in rising order. The run so far is in reverse, with `last` at its head. Answers
with the run and the entries after it. -/
def risingRun (less : EntryOrder) (run : List FieldEntry) (last : FieldEntry) :
    List FieldEntry → Except Value.Unordered (List FieldEntry × List FieldEntry)
  | [] => .ok (run.reverse, [])
  | e :: rest => do
    if ← less e last then return (run.reverse, e :: rest) else risingRun less (e :: run) e rest

/-- Continues a run in falling order, which is kept in rising order with `last` at its head. -/
def fallingRun (less : EntryOrder) (run : List FieldEntry) (last : FieldEntry) :
    List FieldEntry → Except Value.Unordered (List FieldEntry × List FieldEntry)
  | [] => .ok (run, [])
  | e :: rest => do
    if ← less e last then fallingRun less (e :: run) e rest else return (run, e :: rest)

/-- The run at the start, in rising order, and the entries after it. -/
def firstRun (less : EntryOrder) :
    List FieldEntry → Except Value.Unordered (List FieldEntry × List FieldEntry)
  | [] => .ok ([], [])
  | [e] => .ok ([e], [])
  | d :: e :: rest => do
    if ← less e d then fallingRun less [e, d] e rest else risingRun less [e, d] e rest

/-- The first place from `low` up to `high` at which a sorted list has an entry that stands behind. -/
def place (less : EntryOrder) (e : FieldEntry) (sorted : List FieldEntry) (low high : Nat)
    (h : high ≤ sorted.length) : Except Value.Unordered Nat :=
  if hlt : low < high then do
    let middle := low + (high - low) / 2
    have hm : middle < sorted.length := by omega
    if ← less e sorted[middle] then place less e sorted low middle (by omega)
    else place less e sorted (middle + 1) high h
  else .ok low
termination_by high - low

/-- Puts an entry into its place. -/
def insertEntry (less : EntryOrder) (sorted : List FieldEntry) (e : FieldEntry) :
    Except Value.Unordered (List FieldEntry) := do
  let i ← place less e sorted 0 sorted.length (Nat.le_refl _)
  return sorted.take i ++ e :: sorted.drop i

/-- Puts entries into their places, one after the other. -/
def insertEntries (less : EntryOrder) (sorted : List FieldEntry) :
    List FieldEntry → Except Value.Unordered (List FieldEntry)
  | [] => .ok sorted
  | e :: rest => do insertEntries less (← insertEntry less sorted e) rest

/-- The entries sorted by an order. -/
def sortEntries (less : EntryOrder) (es : List FieldEntry) : Except Value.Unordered (List FieldEntry) := do
  let (run, rest) ← firstRun less es
  insertEntries less run rest

/-- The entries of a mapping sorted as pairs. -/
def sorted (f : Fields) : Except Value.Unordered (List FieldEntry) := sortEntries pairLess f.entries

end ContextLog.Fields
