import ContextLog.Value.Basic
/-!
# Fields

A mapping from keys to values that remembers in which order its keys were first set. Setting a key
that is there keeps its place and the key as it was first written, and replaces the value; erasing
a key and setting it again moves it to the end. No key stands twice (`Fields.distinct`).

`Fields.overlay a b` sets every entry of `b` on `a`, so the entries of `b` win. `Fields.get?_set` says
what a mapping holds after a write, `Fields.forms_set` where the key then stands.
-/

namespace ContextLog

/-- The identities of the keys of a list of entries. -/
def entryForms (es : List (Value × Value)) : List (List Value.KeyAtom) := es.map (·.1.keyForm)

/-- The value of the entry with a key. -/
def findEntry (k : Value) : List (Value × Value) → Option Value
  | [] => none
  | e :: es => if e.1.SameKey k then some e.2 else findEntry k es

/-- Sets a key: in its place if it is there, else at the end. -/
def setEntry (k v : Value) : List (Value × Value) → List (Value × Value)
  | [] => [(k, v)]
  | e :: es => if e.1.SameKey k then (e.1, v) :: es else e :: setEntry k v es

/-- Removes a key. -/
def eraseEntry (k : Value) : List (Value × Value) → List (Value × Value)
  | [] => []
  | e :: es => if e.1.SameKey k then es else e :: eraseEntry k es

/-- Entries with distinct keys, in the order in which the keys were first set. -/
structure Fields where
  entries : List (Value × Value)
  distinct : (entryForms entries).Nodup
  deriving Repr

theorem entryForms_setEntry (k v : Value) (es : List (Value × Value)) :
    entryForms (setEntry k v es) =
      if k.keyForm ∈ entryForms es then entryForms es else entryForms es ++ [k.keyForm] := by
  induction es with
  | nil => simp [setEntry, entryForms]
  | cons e es ih =>
    by_cases h : e.1.SameKey k
    · have h' : e.1.keyForm = k.keyForm := h
      simp [setEntry, h, entryForms, h']
    · have h' : ¬ e.1.keyForm = k.keyForm := h
      have h'' : ¬ k.keyForm = e.1.keyForm := fun q => h' q.symm
      simp only [setEntry, h, if_false]
      simp only [entryForms, List.map_cons, List.mem_cons, h'', false_or] at ih ⊢
      rw [ih]
      by_cases hm : k.keyForm ∈ List.map (fun x => x.1.keyForm) es <;> simp [hm]

theorem nodup_setEntry (k v : Value) {es : List (Value × Value)} (h : (entryForms es).Nodup) :
    (entryForms (setEntry k v es)).Nodup := by
  rw [entryForms_setEntry]
  split
  · exact h
  · rename_i hk
    rw [List.nodup_append]
    refine ⟨h, by simp, ?_⟩
    intro a ha b hb
    simp only [List.mem_singleton] at hb
    subst hb
    exact fun q => hk (q ▸ ha)

theorem sublist_eraseEntry (k : Value) (es : List (Value × Value)) :
    (eraseEntry k es).Sublist es := by
  induction es with
  | nil => simp [eraseEntry]
  | cons e es ih =>
    by_cases h : e.1.SameKey k
    · simp [eraseEntry, h]
    · simp only [eraseEntry, h, if_false]
      exact ih.cons_cons e

namespace Fields

instance : Inhabited Fields := ⟨⟨[], by simp [entryForms]⟩⟩

/-- No fields. -/
def empty : Fields := ⟨[], by simp [entryForms]⟩

instance : EmptyCollection Fields := ⟨empty⟩

/-- The entries in order. -/
def toList (f : Fields) : List (Value × Value) := f.entries

/-- The keys in order. -/
def keys (f : Fields) : List Value := f.entries.map (·.1)

/-- How many entries there are. -/
def size (f : Fields) : Nat := f.entries.length

/-- Are there no entries? -/
def isEmpty (f : Fields) : Bool := f.entries.isEmpty

/-- The value under a key. -/
def get? (f : Fields) (k : Value) : Option Value := findEntry k f.entries

/-- Sets a key: in its place if it is there, else at the end. -/
def set (f : Fields) (k v : Value) : Fields := ⟨setEntry k v f.entries, nodup_setEntry k v f.distinct⟩

/-- Removes a key. -/
def erase (f : Fields) (k : Value) : Fields :=
  ⟨eraseEntry k f.entries, ((sublist_eraseEntry k f.entries).map _).nodup f.distinct⟩

/-- Sets entries one after the other. -/
def setAll (f : Fields) (es : List (Value × Value)) : Fields := es.foldl (fun f e => f.set e.1 e.2) f

/-- The entries set one after the other, starting from none. -/
def ofList (es : List (Value × Value)) : Fields := empty.setAll es

/-- The first mapping with every entry of the second set on it. -/
def overlay (a b : Fields) : Fields := a.setAll b.entries

/-- The fields as a value. -/
def toValue (f : Fields) : Value := .dict f.entries

@[ext] theorem ext {a b : Fields} (h : a.entries = b.entries) : a = b := by
  cases a; cases b; cases h; rfl

@[simp] theorem entries_set (f : Fields) (k v : Value) : (f.set k v).entries = setEntry k v f.entries :=
  rfl

@[simp] theorem entries_empty : (empty : Fields).entries = [] := rfl

@[simp] theorem toList_empty : (empty : Fields).toList = [] := rfl

end Fields

theorem findEntry_setEntry (k v j : Value) (es : List (Value × Value)) :
    findEntry j (setEntry k v es) = if k.SameKey j then some v else findEntry j es := by
  induction es with
  | nil => simp [setEntry, findEntry]
  | cons e es ih =>
    by_cases h : e.1.SameKey k
    · have h' : e.1.keyForm = k.keyForm := h
      by_cases hj : k.SameKey j
      · have : e.1.SameKey j := h'.trans hj
        simp [setEntry, findEntry, h, hj, this]
      · have : ¬ e.1.SameKey j := fun q => hj (h'.symm.trans q)
        simp [setEntry, findEntry, h, hj, this]
    · by_cases hj : e.1.SameKey j
      · have : ¬ k.SameKey j := fun q => h (hj.trans (Eq.symm q))
        simp [setEntry, findEntry, h, hj, this]
      · simp [setEntry, findEntry, h, hj, ih]

theorem findEntry_eq_none_iff (k : Value) (es : List (Value × Value)) :
    findEntry k es = none ↔ k.keyForm ∉ entryForms es := by
  induction es with
  | nil => simp [findEntry, entryForms]
  | cons e es ih =>
    by_cases h : e.1.SameKey k
    · have h' : e.1.keyForm = k.keyForm := h
      simp [findEntry, h, entryForms, h']
    · have h' : ¬ k.keyForm = e.1.keyForm := fun q => h (Eq.symm q)
      simp only [findEntry, h, if_false, ih]
      simp [entryForms, h']

namespace Fields

/-- What a mapping holds after a write. -/
theorem get?_set (f : Fields) (k v j : Value) :
    (f.set k v).get? j = if k.SameKey j then some v else f.get? j :=
  findEntry_setEntry k v j f.entries

/-- Where the keys stand after a write. -/
theorem forms_set (f : Fields) (k v : Value) :
    entryForms (f.set k v).entries =
      if k.keyForm ∈ entryForms f.entries then entryForms f.entries
      else entryForms f.entries ++ [k.keyForm] :=
  entryForms_setEntry k v f.entries

end Fields

end ContextLog
