import ContextLog.Level
import ContextLog.Decimal.Binary64
import ContextLog.Value.ErrorKind
/-!
# Values

What a caller may log: nothing, truth values, numbers, texts, bytes, levels, collections, records,
errors and objects that show themselves in ways of their own. `Value.keyForm` is the identity of a
value as the key of a mapping: two values are the same key when their forms are equal, so a whole
number, the equal double and the equal truth value are one key, and a NaN is the same key as itself
only. `Value.less` is the order by which keys are sorted.
-/

namespace ContextLog

/-- A text, which may show itself as another text than the one it holds. -/
structure Text where
  content : String
  shown : Option String := none
  deriving DecidableEq, Repr, Inhabited

/-- The text as it is displayed. -/
def Text.display (t : Text) : String := t.shown.getD t.content

/-- How an object is displayed. -/
inductive Showing
  /-- By its representation. -/
  | representation
  | text (s : String)
  /-- It answers a display with something that is no text. -/
  | notText
  deriving DecidableEq, Repr, Inhabited

/-- An object: how it shows itself and which numbers it stands for. The serial number tells objects
apart. -/
structure Traits where
  typeName : String
  serial : Nat
  representation : String
  showing : Showing := .representation
  index : Option Int := none
  real : Option Binary64 := none
  isError : Bool := false
  deriving DecidableEq, Repr, Inhabited

/-- A value that can be logged. -/
inductive Value
  | none
  | bool (b : Bool)
  | int (n : Int)
  | float (x : Binary64)
  | text (t : Text)
  | bytes (bs : List UInt8)
  | level (l : Level)
  | list (items : List Value)
  | tuple (items : List Value)
  | dict (entries : List (Value × Value))
  /-- A record, shown with the names of its members. -/
  | record (typeName : String) (members : List (String × Value))
  /-- An error with its arguments, and with what its kind attaches to it: the rejected text, the
  message, or the names of the files concerned. -/
  | error (kind : ErrorKind) (serial : Nat) (args attached : List Value)
  | object (traits : Traits)
  /-- An object whose display raises `error`. -/
  | explosive (typeName representation : String) (serial : Nat) (error : Value)
  deriving Repr, Inhabited

namespace Value

/-- A plain text. -/
def str (s : String) : Value := .text { content := s }

/-- The name of a value's type. -/
def typeName : Value → String
  | .none => "NoneType"
  | .bool _ => "bool"
  | .int _ => "int"
  | .float _ => "float"
  | .text t => if t.shown.isSome then "Text" else "str"
  | .bytes _ => "bytes"
  | .level _ => "Level"
  | .list _ => "list"
  | .tuple _ => "tuple"
  | .dict _ => "dict"
  | .record name _ => name
  | .error kind _ _ _ => kind.name
  | .object t => t.typeName
  | .explosive name _ _ _ => name

/-- Does the value count as true? Zero and all that is empty do not. -/
def isTrue : Value → Bool
  | .none => false
  | .bool b => b
  | .int n => n ≠ 0
  | .float x => !x.isZero
  | .text t => t.content ≠ ""
  | .bytes bs => !bs.isEmpty
  | .level l => l ≠ .panic
  | .list xs => !xs.isEmpty
  | .tuple xs => !xs.isEmpty
  | .dict es => !es.isEmpty
  | .record _ _ | .error _ _ _ _ | .object _ | .explosive _ _ _ _ => true

/-- The number that a value is. -/
def quantity? : Value → Option Quantity
  | .bool b => some (.whole b.toNat)
  | .int n => some (.whole n)
  | .level l => some (.whole l.rank)
  | .float x => some (.double x)
  | _ => Option.none

/-- The whole number that a value is by its type. -/
def whole? : Value → Option Int
  | .bool b => some b.toNat
  | .int n => some n
  | .level l => some l.rank
  | _ => Option.none

/-- The whole number that a value is or stands for. -/
def index? : Value → Option Int
  | .object t => t.index
  | v => v.whole?

/-- The level that a value is equal to. -/
def level? (v : Value) : Option Level :=
  match v.quantity? with
  | some (.whole n) => Level.ofRank? n
  | some (.double x) => x.toInt?.bind Level.ofRank?
  | Option.none => Option.none

/-- May the value be raised? -/
def isError : Value → Bool
  | .error _ _ _ _ => true
  | .object t => t.isError
  | _ => false

/-! ## Keys -/

/-- One part of the identity of a key. -/
inductive KeyAtom
  | none
  | whole (n : Int)
  | double (x : Binary64)
  | text (s : String)
  | bytes (bs : List UInt8)
  /-- The start of a tuple of so many items. -/
  | tuple (size : Nat)
  | object (serial : Nat)
  /-- A value that cannot be a key. -/
  | mutable
  deriving DecidableEq, Repr, Inhabited

/-- The identity of a value as a key. -/
def keyForm : Value → List KeyAtom
  | .none => [.none]
  | .bool b => [.whole b.toNat]
  | .int n => [.whole n]
  | .level l => [.whole l.rank]
  | .float x => match x.toInt? with
    | some n => [.whole n]
    | Option.none => [.double x]
  | .text t => [.text t.content]
  | .bytes bs => [.bytes bs]
  | .tuple items => .tuple items.length :: formList items
  | .error _ serial _ _ => [.object serial]
  | .object t => [.object t.serial]
  | .explosive _ _ serial _ => [.object serial]
  | .list _ | .dict _ | .record _ _ => [.mutable]
where
  formList : List Value → List KeyAtom
    | [] => []
    | v :: rest => v.keyForm ++ formList rest

/-- Are two values the same key? -/
def SameKey (a b : Value) : Prop := a.keyForm = b.keyForm

instance (a b : Value) : Decidable (SameKey a b) :=
  inferInstanceAs (Decidable (a.keyForm = b.keyForm))

/-- The type that keeps a value from being a key: that of a collection which may change, or of the
first such item of a tuple. -/
def mutableType? : Value → Option String
  | .list _ => some "list"
  | .dict _ => some "dict"
  | .record name _ => some name
  | .tuple items => firstMutable items
  | _ => Option.none
where
  firstMutable : List Value → Option String
    | [] => Option.none
    | v :: rest => match v.mutableType? with
      | some name => some name
      | Option.none => firstMutable rest

/-! ## Order -/

/-- Two types whose values have no order. -/
structure Unordered where
  left : String
  right : String
  deriving DecidableEq, Repr, Inhabited

/-- Does the first value stand before the second? Numbers, texts and bytes have an order, and tuples
the order of their first items that differ. -/
def less : Value → Value → Except Unordered Bool
  | .text s, .text t => .ok (s.content < t.content)
  | .bytes a, .bytes b => .ok (decide (a.map UInt8.toNat < b.map UInt8.toNat))
  | .tuple xs, .tuple ys => lessList xs ys
  | a, b => match a.quantity?, b.quantity? with
    | some x, some y => .ok (x.compare? y = some .lt)
    | _, _ => .error ⟨a.typeName, b.typeName⟩
where
  lessList : List Value → List Value → Except Unordered Bool
    | _, [] => .ok false
    | [], _ :: _ => .ok true
    | x :: xs, y :: ys => if SameKey x y then lessList xs ys else less x y

end Value

end ContextLog
