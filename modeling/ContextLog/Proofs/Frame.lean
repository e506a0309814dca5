import ContextLog.Proofs.Dispatching
/-!
# What a dispatch leaves as it was

`Store.Extends s s'`: all that `s` holds is still there in `s'`, with the same contents. If no
appender edits what it is handed, every dispatch only extends the store (`dispatch_extends`): the
mappings that were there before, those of builders and of fixed fields among them, keep their
entries in their order, and every context stays as it is.
-/

namespace ContextLog

/-! ## What a handle stands for -/

/-- The handle stands for a mapping, whatever the store holds. -/
def Handle.IsMapping (h : Handle) : Prop := ∀ s : Store, ∃ f, s.supplied h = .fields f

theorem Handle.isMapping_live (m : MappingRef) : (Handle.live m).IsMapping := fun s => ⟨s.mapping m, rfl⟩

theorem Handle.isMapping_vacant : Handle.vacant.IsMapping := fun _ => ⟨.empty, rfl⟩

/-! ## Extending a store -/

namespace Store

/-- No appender edits the fields that it is handed. -/
def IsPassive (s : Store) : Prop := ∀ r, (s.appender r).edits = []

/-- All that the first store holds is still there in the second one. -/
structure Extends (s s' : Store) : Prop where
  mappings : ∀ m : MappingRef, m.index < s.mappings.length → s'.mapping m = s.mapping m
  room : s.mappings.length ≤ s'.mappings.length
  contexts : s'.contexts = s.contexts
  programs : ∀ p, (s'.producer p).program = (s.producer p).program
  edits : ∀ r, (s'.appender r).edits = (s.appender r).edits

variable {s s' s'' : Store}

theorem Extends.refl (s : Store) : s.Extends s := ⟨fun _ _ => rfl, Nat.le_refl _, rfl, fun _ => rfl, fun _ => rfl⟩

theorem Extends.trans (h : s.Extends s') (h' : s'.Extends s'') : s.Extends s'' where
  mappings m hm := (h'.mappings m (Nat.lt_of_lt_of_le hm h.room)).trans (h.mappings m hm)
  room := Nat.le_trans h.room h'.room
  contexts := h'.contexts.trans h.contexts
  programs p := (h'.programs p).trans (h.programs p)
  edits r := (h'.edits r).trans (h.edits r)

theorem Extends.passive (h : s.Extends s') (hs : s.IsPassive) : s'.IsPassive := fun r =>
  (h.edits r).trans (hs r)

theorem program_called (s : Store) (p q : ProducerRef) :
    (({ s with
        producers := s.producers.set p.index
          { s.producer p with calls := (s.producer p).calls + 1 } } : Store).producer q).program =
      (s.producer q).program := by
  unfold producer
  by_cases h : p.index = q.index
  · rw [← h]
    rcases Nat.lt_or_ge p.index s.producers.length with hp | hp
    · simp [hp]
    · rw [List.set_eq_of_length_le hp]
  · simp [List.getElem?_set_ne h]

/-- Every appender stays one of its kind when an appender becomes another one of its kind. -/
theorem kind_received {r : AppenderRef} {a : Appender} (h : a.SameKind (s.appender r)) (q : AppenderRef) :
    (({ s with appenders := s.appenders.set r.index a } : Store).appender q).SameKind (s.appender q) := by
  unfold appender at h ⊢
  by_cases hq : r.index = q.index
  · rw [← hq]
    rcases Nat.lt_or_ge r.index s.appenders.length with hr | hr
    · simpa [hr] using h
    · rw [List.set_eq_of_length_le hr]
      exact ⟨rfl, rfl⟩
  · simp only [List.getElem?_set_ne hq]
    exact ⟨rfl, rfl⟩

/-- A step that edits only mappings made later extends the store. -/
theorem Extends.step {n : Nat} {D : Delivery → Prop} (h : s.Extends s')
    (hn : s.mappings.length ≤ n) (hs : Step (fun m => n ≤ m.index) D s' s'') : s.Extends s'' := by
  cases hs with
  | reported rs => exact ⟨h.mappings, h.room, h.contexts, h.programs, h.edits⟩
  | called p =>
    exact ⟨h.mappings, h.room, h.contexts, fun q => (program_called s' p q).trans (h.programs q), h.edits⟩
  | configured d => exact ⟨h.mappings, h.room, h.contexts, h.programs, h.edits⟩
  | allotted f =>
    refine ⟨fun m hm => ?_, ?_, h.contexts, h.programs, h.edits⟩
    · rw [mapping_allotted_of_lt (Nat.lt_of_lt_of_le hm h.room), h.mappings m hm]
    · simpa using Nat.le_succ_of_le h.room
  | edited m f hm =>
    refine ⟨fun m' hm' => ?_, ?_, h.contexts, h.programs, h.edits⟩
    · rw [mapping_edited_of_ne, h.mappings m' hm']
      -- The edited mapping is newer than all that `s` holds.
      rintro rfl
      exact absurd (Nat.le_trans hn hm) (Nat.not_le.2 hm')
    · simpa using h.room
  | delivered d _ => exact ⟨h.mappings, h.room, h.contexts, h.programs, h.edits⟩
  | received r a ha =>
    exact ⟨h.mappings, h.room, h.contexts, h.programs, fun q => (kind_received ha q).edits.trans (h.edits q)⟩
  | printed channel => exact ⟨h.mappings, h.room, h.contexts, h.programs, h.edits⟩

/-- To extend a store is kept by every step that edits new mappings only. -/
theorem Extends.stable (hs : s.IsPassive) :
    Stable (fun m => s.mappings.length ≤ m.index) (fun _ => True) s.Extends where
  step h hstep := h.step (Nat.le_refl _) hstep
  fresh h := h.room
  edits h r := .inl (h.passive hs r)

/-- The mapping of a handle is in the store. -/
def Knows (s : Store) : Handle → Prop
  | .live m => m.index < s.mappings.length
  | _ => True

theorem Extends.supplied (h : s.Extends s') {handle : Handle} (hk : s.Knows handle) :
    s'.supplied handle = s.supplied handle := by
  cases handle with
  | live m => exact congrArg Supplied.fields (h.mappings m hk)
  | _ => rfl

theorem Extends.knows (h : s.Extends s') {handle : Handle} (hk : s.Knows handle) : s'.Knows handle := by
  cases handle with
  | live m => exact Nat.lt_of_lt_of_le hk h.room
  | _ => trivial

end Store

/-! ## Runs of dispatches -/

/-- A dispatch leaves everything that the store holds as it was, however it ends. -/
theorem dispatch_extends {s : Store} (hs : s.IsPassive) (depth : Nat) (call : Call) :
    s.Extends ((dispatch depth call).leaves s) :=
  (dispatch_keeps (Store.Extends.stable hs) depth call).leaves (.refl s)

/-- The store after a run of dispatches, whichever way each of them ended. -/
def Store.after (s : Store) (depth : Nat) (calls : List Call) : Store :=
  calls.foldl (fun s call => (dispatch depth call).leaves s) s

theorem Store.after_concat (s : Store) (depth : Nat) (calls : List Call) (call : Call) :
    s.after depth (calls ++ [call]) = (dispatch depth call).leaves (s.after depth calls) := by
  rw [after, List.foldl_append]
  rfl

theorem Store.after_extends {s : Store} (hs : s.IsPassive) (depth : Nat) (calls : List Call) :
    s.Extends (s.after depth calls) := by
  induction calls generalizing s with
  | nil => exact .refl s
  | cons call calls ih =>
    have hext := dispatch_extends hs depth call
    exact hext.trans (ih (hext.passive hs))

end ContextLog
