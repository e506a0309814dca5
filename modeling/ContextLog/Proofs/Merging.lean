import ContextLog.Proofs.Threshold
/-!
# Merging mappings

A mapping is told by its keys in order and by the value under each (`Fields.ext_keys`). Setting one mapping on
another keeps the keys of the first in their places, puts the new ones behind them, and takes the value of the
second wherever it has one (`Fields.overlay_isOverlay`); so it can be done in any grouping, and the empty mapping
makes no difference. The merge of an entry's fields answers with one of its sides or with a new mapping, but what
it answers with is always this, and both sides stay what they are (`merging_overlays`).
-/

namespace ContextLog

namespace Fields

variable {f g : Fields}

/-! ## Keys and values -/

theorem isSome_get?_iff (f : Fields) (k : Value) : (f.get? k).isSome ↔ k.keyForm ∈ entryForms f.entries := by
  rw [← Option.ne_none_iff_isSome, Ne, get?, findEntry_eq_none_iff, not_not]

theorem get?_of_mem {e : Value × Value} (h : e ∈ f.entries) : f.get? e.1 = some e.2 := findEntry_of_mem f.distinct h

/-- Mappings with the same keys in the same order and with the same values are one. -/
theorem ext_keys (hkeys : f.keys = g.keys) (hvalues : ∀ k, f.get? k = g.get? k) : f = g := by
  have hentries : ∀ f : Fields, f.entries = f.keys.map fun k => (k, (f.get? k).getD .none) := by
    intro f
    unfold keys
    rw [List.map_map]
    refine (List.map_id f.entries).symm.trans (List.map_congr_left fun e he => ?_)
    simp [get?_of_mem he]
  apply ext
  rw [hentries f, hentries g, hkeys]
  simp only [hvalues]

theorem keys_set (f : Fields) (k v : Value) :
    (f.set k v).keys = if (f.get? k).isSome then f.keys else f.keys ++ [k] := by
  have hes : ∀ es : List (Value × Value), (setEntry k v es).map (·.1) =
      if (findEntry k es).isSome then es.map (·.1) else es.map (·.1) ++ [k] := by
    intro es
    induction es with
    | nil => rfl
    | cons e es ih =>
      by_cases h : e.1.SameKey k
      · simp [setEntry, findEntry, h]
      · simp only [setEntry, findEntry, h, if_false, List.map_cons, ih]
        split <;> rfl
  exact hes f.entries

/-- Of entries with distinct keys those are new keys that a mapping does not have. -/
theorem keys_setAll (f : Fields) {es : List (Value × Value)} (hd : (entryForms es).Nodup) :
    (f.setAll es).keys = f.keys ++ (es.map (·.1)).filter fun k => (f.get? k).isNone := by
  induction es generalizing f with
  | nil => exact (List.append_nil _).symm
  | cons e es ih =>
    obtain ⟨hnew, hd⟩ := List.nodup_cons.1 hd
    -- The keys behind the first one are other keys, so that its write does not tell on them.
    have hrest : (es.map (·.1)).filter (fun k => ((f.set e.1 e.2).get? k).isNone) =
        (es.map (·.1)).filter fun k => (f.get? k).isNone := by
      refine List.filter_congr fun k hk => ?_
      obtain ⟨e', he', rfl⟩ := List.mem_map.1 hk
      have hne : ¬ e.1.SameKey e'.1 := fun h => hnew (List.mem_map.2 ⟨e', he', Eq.symm h⟩)
      rw [get?_set, if_neg hne]
    show ((f.set e.1 e.2).setAll es).keys = _
    rw [ih _ hd, hrest, keys_set]
    cases he : f.get? e.1 with
    | none => simp [he]
    | some v => simp [he]

/-! ## One mapping set on another -/

theorem get?_overlay (f g : Fields) (k : Value) : (f.overlay g).get? k = (g.get? k).or (f.get? k) := by
  have hreverse : findEntry k g.entries.reverse = g.get? k :=
    (findEntry_perm g.entries.reverse_perm.symm g.distinct k).symm
  rw [overlay, get?_setAll, hreverse]

theorem keys_overlay (f g : Fields) :
    (f.overlay g).keys = f.keys ++ g.keys.filter fun k => (f.get? k).isNone := f.keys_setAll g.distinct

/-- Mappings can be set on one another in any grouping, down to the order of the keys. -/
theorem overlay_assoc (f g h : Fields) : (f.overlay g).overlay h = f.overlay (g.overlay h) := by
  apply ext_keys
  · have hnew : (fun k => ((f.overlay g).get? k).isNone) = fun k => (f.get? k).isNone && (g.get? k).isNone := by
      funext k
      rw [get?_overlay]
      cases f.get? k <;> cases g.get? k <;> rfl
    simp only [keys_overlay, hnew, List.filter_append, List.filter_filter, List.append_assoc]
  · intro k
    simp only [get?_overlay, Option.or_assoc]

theorem overlay_empty (f : Fields) : f.overlay .empty = f := rfl

/-- A mapping is `a` with `p` set on it: what it holds under each key, which keys it has in which order, and that
each key stands there once. -/
structure IsOverlay (r a p : Fields) : Prop where
  value : ∀ k, r.get? k = (p.get? k).or (a.get? k)
  keys : r.keys = a.keys ++ p.keys.filter fun k => (a.get? k).isNone
  once : ∀ k : Value, r.keys.countP (fun k' => k'.SameKey k) = if (a.get? k).isSome || (p.get? k).isSome then 1 else 0

theorem countP_keys (f : Fields) (k : Value) :
    f.keys.countP (fun k' => k'.SameKey k) = if (f.get? k).isSome then 1 else 0 := by
  have hcount : f.keys.countP (fun k' => k'.SameKey k) = (entryForms f.entries).count k.keyForm := by
    simp only [keys, entryForms, List.count, List.countP_map]
    refine List.countP_congr fun e _ => ?_
    rw [Function.comp_apply, Function.comp_apply, decide_eq_true_iff, beq_iff_eq, Value.SameKey]
  rw [hcount, f.distinct.count]
  simp only [isSome_get?_iff]

theorem overlay_isOverlay (a p : Fields) : (a.overlay p).IsOverlay a p where
  value := a.get?_overlay p
  keys := a.keys_overlay p
  once k := by
    rw [countP_keys, get?_overlay]
    cases a.get? k <;> cases p.get? k <;> rfl

end Fields

/-! ## Merging in the store -/

variable {s s' : Store} {a b c p e : Handle} {f g k : Fields}

theorem Store.Allots.supplied (h : s.Allots s') {own : Handle} (hk : s.Knows own) :
    s'.supplied own = s.supplied own := by
  obtain ⟨ms, rfl⟩ := h
  cases own with
  | live m =>
    have hm : m.index < s.mappings.length := hk
    simp [Store.supplied, Store.mapping, List.getElem?_append_left hm]
  | _ => rfl

theorem Store.Allots.trans {s'' : Store} (h : s.Allots s') (h' : s'.Allots s'') : s.Allots s'' := by
  obtain ⟨ms, rfl⟩ := h
  obtain ⟨ms', rfl⟩ := h'
  exact ⟨ms ++ ms', by simp only [List.append_assoc]⟩

/-- A merge comes to a mapping with the fields `r`. The store has at most some more mappings afterwards, and
whatever a handle held before it holds still. -/
def Session.MergesTo (x : Session (MergeSide × Handle)) (s : Store) (r : Fields) : Prop :=
  ∃ side h s', x s = .ok (side, h) s' ∧ s'.supplied h = .fields r ∧ s.Allots s' ∧
    ∀ own, s.Knows own → s'.supplied own = s.supplied own

/-- Nothing merges as the empty mapping does. -/
theorem mergeHandles_mergesTo (ha : s.supplied a = .fields f) (hp : (s.supplied p).IsRegular) :
    (mergeHandles a p).MergesTo s (f.overlay (s.ownFields p)) := by
  unfold Store.ownFields
  cases hs : s.supplied p with
  | nothing =>
    refine ⟨.explicit, a, s, ?_, ha, .refl s, fun _ _ => rfl⟩
    unfold mergeHandles
    rw [Session.run_bind_ok Session.run_get, hs]
    rfl
  | fields g =>
    obtain ⟨side, h, s', hm, hs', hh⟩ := mergeHandles_mappings ha hs
    exact ⟨side, h, s', hm, hh, hs', fun own => hs'.supplied⟩
  | other v =>
    rw [hs] at hp
    exact hp.elim

/-- What is merged first is merged with the rest as any mapping is. -/
theorem Session.MergesTo.bind {x : Session (MergeSide × Handle)}
    {y : MergeSide × Handle → Session (MergeSide × Handle)} {r : Fields} (hx : x.MergesTo s f)
    (hy : ∀ side h s', s.Allots s' → s'.supplied h = .fields f → (y (side, h)).MergesTo s' r) :
    (x >>= y).MergesTo s r := by
  obtain ⟨side, h, s₁, hrun, hh, hs₁, hsame⟩ := hx
  obtain ⟨side', h', s₂, hrun', hh', hs₂, hsame'⟩ := hy side h s₁ hs₁ hh
  refine ⟨side', h', s₂, (run_bind_ok hrun).trans hrun', hh', hs₁.trans hs₂, fun own hk => ?_⟩
  have hk' : s₁.Knows own := by
    obtain ⟨ms, rfl⟩ := hs₁
    cases own with
    | live m => exact Nat.lt_of_lt_of_le hk (by simp)
    | _ => trivial
  exact (hsame' own hk').trans (hsame own hk)

/-- Merging mappings is setting one on another: the merge of two sides, of which the second may be nothing, has the
keys and the values of an overlay; three mappings come to the same whichever two of them are merged first; an empty
mapping changes nothing on either side; and no merge changes what it was given. -/
theorem merging_overlays (ha : s.supplied a = .fields f) (hb : s.supplied b = .fields g)
    (hc : s.supplied c = .fields k) (hp : (s.supplied p).IsRegular) (he : s.supplied e = .fields .empty)
    (hka : s.Knows a) (hkc : s.Knows c) :
    (∃ r, r.IsOverlay f (s.ownFields p) ∧ (mergeHandles a p).MergesTo s r) ∧
    (∃ r, (do let (_, ab) ← mergeHandles a b; mergeHandles ab c).MergesTo s r ∧
      (do let (_, bc) ← mergeHandles b c; mergeHandles a bc).MergesTo s r) ∧
    (mergeHandles a e).MergesTo s f ∧ (mergeHandles e a).MergesTo s f := by
  -- A merge of two mappings in a store that has at most more of them.
  have hmerge : ∀ {s : Store} {a b : Handle} {f g : Fields}, s.supplied a = .fields f → s.supplied b = .fields g →
      (mergeHandles a b).MergesTo s (f.overlay g) := by
    intro s a b f g ha hb
    have h := mergeHandles_mergesTo ha (p := b) (by rw [hb]; trivial)
    rwa [Store.ownFields, hb] at h
  refine ⟨⟨_, f.overlay_isOverlay _, mergeHandles_mergesTo ha hp⟩, ⟨(f.overlay g).overlay k, ?_, ?_⟩, ?_, ?_⟩
  · refine (hmerge ha hb).bind fun side ab s' hs' hab => ?_
    exact hmerge hab ((hs'.supplied hkc).trans hc)
  · rw [Fields.overlay_assoc]
    refine (hmerge hb hc).bind fun side bc s' hs' hbc => ?_
    exact hmerge ((hs'.supplied hka).trans ha) hbc
  · exact f.overlay_empty ▸ hmerge ha he
  · exact f.empty_overlay ▸ hmerge he ha

/-- A store with three mappings that share keys. -/
def sharedKeys : Store where
  mappings := [.ofList [(.str "user", .str "ada"), (.str "size", .int 1)],
    .ofList [(.str "size", .int 2), (.str "path", .str "/tmp")],
    .ofList [(.str "path", .none), (.str "user", .str "bob"), (.str "host", .str "a1")]]

/-- Merging them, or the first one with nothing. -/
theorem merging_overlays_sharedKeys :
    (∃ r, r.IsOverlay (sharedKeys.mapping ⟨0⟩) .empty ∧ (mergeHandles (.live ⟨0⟩) .nothing).MergesTo sharedKeys r) ∧
    (∃ r, (do let (_, ab) ← mergeHandles (.live ⟨0⟩) (.live ⟨1⟩); mergeHandles ab (.live ⟨2⟩)).MergesTo sharedKeys r ∧
      (do let (_, bc) ← mergeHandles (.live ⟨1⟩) (.live ⟨2⟩); mergeHandles (.live ⟨0⟩) bc).MergesTo sharedKeys r) ∧
    (mergeHandles (.live ⟨0⟩) .vacant).MergesTo sharedKeys (sharedKeys.mapping ⟨0⟩) ∧
    (mergeHandles .vacant (.live ⟨0⟩)).MergesTo sharedKeys (sharedKeys.mapping ⟨0⟩) :=
  merging_overlays (p := .nothing) rfl (b := .live ⟨1⟩) rfl rfl trivial rfl (by show 0 < 3; decide)
    (by show 2 < 3; decide)

end ContextLog
