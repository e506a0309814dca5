import ContextLog.Fields.Basic
import ContextLog.Failure.Basic
/-!
# Fields read from a value

A value can be read as a mapping when it is one, or when it is a sequence of pairs: a list, a tuple,
a text or bytes whose items are each a sequence of a key and a value. The pairs are set one after the
other, and reading stops at the first that is no pair or whose key may change.

`Fields.update` answers with the fields as far as they were set, also when reading stops;
`Fields.ofValue?` with all of them or none.
-/

namespace ContextLog

/-- The items of a value that is a sequence or a mapping, of which the items are the keys. -/
def Value.items? : Value → Option (List Value)
  | .text t => some (t.content.toList.map fun c => .str (String.ofList [c]))
  | .bytes bs => some (bs.map fun b => .int b.toNat)
  | .list items => some items
  | .tuple items => some items
  | .dict entries => some (entries.map (·.1))
  | _ => Option.none

namespace Fields

/-- The key and the value of the item at a position. -/
def pairAt (position : Nat) (item : Value) : Except MappingFault (Value × Value) :=
  match item.items? with
  | some [k, v] =>
    match k.mutableType? with
    | some type => .error (.unhashable type)
    | none => .ok (k, v)
  | some items => .error (.notAPair position items.length)
  | none => .error (.notASequence position)

/-- Sets the pairs of a sequence from a position on, until one of them is refused. -/
def setPairs (f : Fields) (position : Nat) : List Value → Except MappingFault Unit × Fields
  | [] => (.ok (), f)
  | item :: rest =>
    match pairAt position item with
    | .ok (k, v) => setPairs (f.set k v) (position + 1) rest
    | .error fault => (.error fault, f)

/-- Sets everything that a value holds as a mapping, as far as it can be read. -/
def update (f : Fields) (v : Value) : Except MappingFault Unit × Fields :=
  match v with
  | .dict entries => (.ok (), f.setAll entries)
  | v =>
    match v.items? with
    | some items => f.setPairs 0 items
    | none => (.error (.notIterable v.typeName), f)

/-- The fields that a value holds as a mapping. -/
def ofValue? (v : Value) : Except MappingFault Fields :=
  match empty.update v with
  | (.ok (), f) => .ok f
  | (.error fault, _) => .error fault

end Fields

end ContextLog
