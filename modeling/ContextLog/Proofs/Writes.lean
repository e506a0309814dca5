import ContextLog.Fields.Supplied
/-!
# Many writes

What a mapping holds after a list of writes, from what it held before: `Fields.get?_setAll` gives the
value under a key, `Fields.forms_setAll` the keys in their order. The two together say all that can be
told of a mapping by its keys.
-/

namespace ContextLog

theorem findEntry_append (k : Value) (es fs : List (Value × Value)) :
    findEntry k (es ++ fs) = (findEntry k es).or (findEntry k fs) := by
  induction es with
  | nil => rfl
  | cons e es ih =>
    simp only [List.cons_append, findEntry]
    split
    · rfl
    · exact ih

/-- Setting a key to the value that it has changes nothing. -/
theorem setEntry_of_findEntry {k v : Value} {es : List (Value × Value)} (h : findEntry k es = some v) :
    setEntry k v es = es := by
  induction es with
  | nil => cases h
  | cons e es ih =>
    unfold findEntry at h
    unfold setEntry
    split at h
    · rw [if_pos ‹_›]
      cases h
      rfl
    · rw [if_neg ‹_›, ih h]

/-- Removing a key that is not there changes nothing. -/
theorem eraseEntry_of_findEntry {k : Value} {es : List (Value × Value)} (h : findEntry k es = none) :
    eraseEntry k es = es := by
  induction es with
  | nil => rfl
  | cons e es ih =>
    unfold findEntry at h
    unfold eraseEntry
    split at h
    · cases h
    · rw [if_neg ‹_›, ih h]

/-- A key that is not there is set at the end. -/
theorem setEntry_of_not_mem {k : Value} (v : Value) {es : List (Value × Value)}
    (h : k.keyForm ∉ entryForms es) : setEntry k v es = es ++ [(k, v)] := by
  induction es with
  | nil => rfl
  | cons e es ih =>
    have hne : ¬ e.1.SameKey k := fun q => h (List.mem_cons.2 (.inl (Eq.symm q)))
    rw [setEntry, if_neg hne, ih fun hmem => h (List.mem_cons_of_mem _ hmem)]
    rfl

/-- Where keys are distinct, every entry is found by its key. -/
theorem findEntry_of_mem {e : Value × Value} {es : List (Value × Value)} (hd : (entryForms es).Nodup)
    (h : e ∈ es) : findEntry e.1 es = some e.2 := by
  induction es with
  | nil => cases h
  | cons e' es ih =>
    have hd' := List.nodup_cons.1 hd
    rcases List.mem_cons.1 h with rfl | h
    · simp [findEntry, Value.SameKey]
    · have hne : ¬ e'.1.SameKey e.1 := fun q =>
        hd'.1 (List.mem_map.2 ⟨e, h, (show e'.1.keyForm = e.1.keyForm from q).symm⟩)
      rw [findEntry, if_neg hne]
      exact ih hd'.2 h

theorem findEntry_eq_some_iff {k v : Value} {es : List (Value × Value)} (hd : (entryForms es).Nodup) :
    findEntry k es = some v ↔ ∃ e ∈ es, e.1.SameKey k ∧ e.2 = v := by
  induction es with
  | nil => simp [findEntry]
  | cons e es ih =>
    obtain ⟨hnew, hd⟩ := List.nodup_cons.1 hd
    by_cases h : e.1.SameKey k
    · -- No entry behind this one has its key.
      have hnone : ∀ e' ∈ es, ¬ e'.1.SameKey k := fun e' he' h' =>
        hnew (List.mem_map.2 ⟨e', he', Eq.trans h' (Eq.symm h)⟩)
      constructor
      · intro hv
        exact ⟨e, List.mem_cons_self, h, by simpa [findEntry, h] using hv⟩
      · rintro ⟨e', he', hk, rfl⟩
        rcases List.mem_cons.1 he' with rfl | he'
        · simp [findEntry, h]
        · exact absurd hk (hnone e' he')
    · simp [findEntry, h, ih hd]

/-- In which order entries with distinct keys stand does not matter for what is found. -/
theorem findEntry_perm {es es' : List (Value × Value)} (hp : es.Perm es') (hd : (entryForms es).Nodup) (k : Value) :
    findEntry k es = findEntry k es' := by
  induction hp with
  | nil => rfl
  | cons e _ ih => simp only [findEntry, ih (List.nodup_cons.1 hd).2]
  | swap e e' es =>
    have hne : e'.1.keyForm ≠ e.1.keyForm := fun h => (List.nodup_cons.1 hd).1 (by simp [h])
    by_cases h : e.1.SameKey k
    · have h' : ¬ e'.1.SameKey k := fun q => hne (Eq.trans q (Eq.symm h))
      simp [findEntry, h, h']
    · simp [findEntry, h]
  | trans hp _ ih ih' =>
    have hforms := hp.map fun e => e.1.keyForm
    exact (ih hd).trans (ih' (hforms.nodup_iff.1 hd))

theorem eraseDups_of_nodup {α : Type} [BEq α] [LawfulBEq α] {xs : List α} (h : xs.Nodup) :
    xs.eraseDups = xs := by
  induction xs with
  | nil => rfl
  | cons x xs ih =>
    have hx := List.nodup_cons.1 h
    rw [List.eraseDups_cons, List.filter_eq_self.2, ih hx.2]
    intro y hy
    simpa using fun q : y = x => hx.1 (q ▸ hy)

namespace Fields

variable {f : Fields} {k v : Value} {es : List (Value × Value)}

theorem setAll_append (f : Fields) (es fs : List (Value × Value)) :
    f.setAll (es ++ fs) = (f.setAll es).setAll fs := List.foldl_append

/-- A key holds what was written last under it. -/
theorem get?_setAll (f : Fields) (es : List (Value × Value)) (k : Value) :
    (f.setAll es).get? k = (findEntry k es.reverse).or (f.get? k) := by
  induction es generalizing f with
  | nil => rfl
  | cons e es ih =>
    show ((f.set e.1 e.2).setAll es).get? k = _
    rw [ih, get?_set, List.reverse_cons, findEntry_append, Option.or_assoc]
    by_cases h : e.1.SameKey k
    · simp [findEntry, h]
    · simp [findEntry, h]

/-- Keys stand in the order in which they were first written, behind those that were there before. -/
theorem forms_setAll (f : Fields) (es : List (Value × Value)) :
    entryForms (f.setAll es).entries = (entryForms f.entries ++ entryForms es).eraseDups := by
  induction es generalizing f with
  | nil =>
    show entryForms f.entries = (entryForms f.entries ++ []).eraseDups
    rw [List.append_nil, eraseDups_of_nodup f.distinct]
  | cons e es ih =>
    show entryForms ((f.set e.1 e.2).setAll es).entries = (_ ++ e.1.keyForm :: entryForms es).eraseDups
    rw [ih, forms_set]
    split
    · rw [List.eraseDups_append, List.eraseDups_append, List.cons_removeAll]
      simp [*]
    · rw [List.append_assoc]
      rfl

theorem mem_forms_set {form : List Value.KeyAtom} :
    form ∈ entryForms (f.set k v).entries ↔ form ∈ entryForms f.entries ∨ form = k.keyForm := by
  rw [forms_set]
  split
  · exact ⟨.inl, fun h => h.elim id fun h => h ▸ ‹_›⟩
  · rw [List.mem_append, List.mem_singleton]

theorem mem_forms_setAll {form : List Value.KeyAtom} :
    form ∈ entryForms (f.setAll es).entries ↔ form ∈ entryForms f.entries ∨ form ∈ entryForms es := by
  rw [forms_setAll, List.mem_eraseDups, List.mem_append]

theorem erase_of_get? (h : f.get? k = none) : f.erase k = f := Fields.ext (eraseEntry_of_findEntry h)

theorem mem_forms_of_erase {form : List Value.KeyAtom} (h : form ∈ entryForms (f.erase k).entries) :
    form ∈ entryForms f.entries :=
  ((sublist_eraseEntry k f.entries).map _).subset h

/-- Writing entries that a mapping already has changes nothing. -/
theorem setAll_of_get? (h : ∀ e ∈ es, f.get? e.1 = some e.2) : f.setAll es = f := by
  induction es with
  | nil => rfl
  | cons e es ih =>
    have hset : f.set e.1 e.2 = f := Fields.ext (setEntry_of_findEntry (h e List.mem_cons_self))
    show (f.set e.1 e.2).setAll es = f
    rw [hset]
    exact ih fun e' he => h e' (List.mem_cons_of_mem _ he)

/-- Entries whose keys are new and distinct are set behind those that were there before. -/
theorem entries_setAll (h : (entryForms f.entries ++ entryForms es).Nodup) :
    (f.setAll es).entries = f.entries ++ es := by
  induction es generalizing f with
  | nil => exact (List.append_nil _).symm
  | cons e es ih =>
    have hnew : e.1.keyForm ∉ entryForms f.entries := fun hmem =>
      (List.nodup_append.1 h).2.2 _ hmem _ List.mem_cons_self rfl
    have hset : (f.set e.1 e.2).entries = f.entries ++ [e] := setEntry_of_not_mem e.2 hnew
    have hforms : entryForms (f.set e.1 e.2).entries = entryForms f.entries ++ [e.1.keyForm] := by
      rw [hset]
      exact List.map_append
    show ((f.set e.1 e.2).setAll es).entries = _
    rw [ih (by rw [hforms, List.append_assoc]; exact h), hset, List.append_assoc]
    rfl

/-- What is set on nothing stays what it is. -/
theorem empty_overlay (f : Fields) : empty.overlay f = f := Fields.ext (entries_setAll f.distinct)

/-- A mapping that is set on itself stays what it is. -/
theorem overlay_self (f : Fields) : f.overlay f = f :=
  setAll_of_get? fun _ he => findEntry_of_mem f.distinct he

end Fields

end ContextLog
