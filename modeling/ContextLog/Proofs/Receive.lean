import ContextLog.Proofs.Level
import ContextLog.Proofs.Step
/-!
# What an appender does with an entry

Whatever its kind is, an appender changes itself, the standard output or, if it is one that edits, the
fields that it is handed (`receive_keeps`). It fails for reasons of its own, and never in the way in
which a dispatch ends once its entry is delivered (`receive_fails`).
-/

namespace ContextLog

open Store

variable {owned : MappingRef → Prop} {I : Store → Prop} {s : Store}

/-! ## What an appender changes -/

theorem appender_received {s : Store} {r : AppenderRef} (h : s.appender r ≠ .plain .none)
    (a : Appender) :
    ({ s with appenders := s.appenders.set r.index a } : Store).appender r = a := by
  unfold Store.appender at h ⊢
  rcases Nat.lt_or_ge r.index s.appenders.length with hr | hr
  · simp [hr]
  · exact absurd (by simp [List.getElem?_eq_none hr]) h

theorem appender_received_of_ne {s : Store} {r q : AppenderRef} (h : q ≠ r) (a : Appender) :
    ({ s with appenders := s.appenders.set r.index a } : Store).appender q = s.appender q := by
  have hi : r.index ≠ q.index := fun he => h (by cases q; cases r; simpa using he.symm)
  simp only [appender, List.getElem?_set_ne hi]

/-- An entry is kept behind the others; if its fields cannot be copied, only its context is. -/
theorem keepRecord_run (remake : List (Option ContextRef) → List Record → Appender) (r : AppenderRef)
    (ctx : Option ContextRef) (level : Value) (h : Handle) (msg : Value) (s : Store) :
    keepRecord remake r ctx level h msg s = match (s.supplied h).copy with
      | .ok kept => .ok () { s with
          appenders := s.appenders.set r.index
            (remake ((s.appender r).contexts ++ [ctx]) ((s.appender r).records ++ [⟨level, kept, msg⟩])) }
      | .error f => .error f { s with
          appenders := s.appenders.set r.index
            (remake ((s.appender r).contexts ++ [ctx]) (s.appender r).records) } := by
  generalize hnoted : ({ s with
    appenders := s.appenders.set r.index
      (remake ((s.appender r).contexts ++ [ctx]) (s.appender r).records) } : Store) = s₁
  have hnote : Session.setAppender r (remake ((s.appender r).contexts ++ [ctx]) (s.appender r).records) s =
      .ok () s₁ := hnoted ▸ rfl
  -- The note on the context leaves the fields as they are.
  have hcopy : Session.copy h s₁ = Session.lift (s.supplied h).copy s₁ := by
    have hsupplied : s₁.supplied h = s.supplied h := by
      rw [← hnoted]
      cases h <;> rfl
    unfold Session.copy
    rw [Session.run_bind_ok Session.run_get, hsupplied]
  unfold keepRecord
  rw [Session.run_bind_ok Session.run_get, Session.run_seq_ok hnote]
  cases hc : (s.supplied h).copy with
  | ok kept =>
    rw [hc, Session.run_lift_ok] at hcopy
    rw [Session.run_bind_ok hcopy, ← hnoted]
    simp only [Session.setAppender, Session.run_modify, List.set_set]
  | error f =>
    rw [hc, Session.run_lift_error] at hcopy
    rw [Session.run_bind_error hcopy]

theorem keepRecord_keeps {r : AppenderRef} {fields : Handle} (hI : Receptive owned r fields I) (hs : I s)
    (hr : s.appender r ≠ .plain .none)
    {remake : List (Option ContextRef) → List Record → Appender}
    (hremake : ∀ cs rs, (remake cs rs).SameKind (s.appender r)) (ctx : Option ContextRef)
    (level : Value) (msg : Value) :
    (keepRecord remake r ctx level fields msg).Yields s I fun _ _ => True := by
  unfold keepRecord
  refine .get ?_
  -- The context is noted before the fields are copied, so a failure in between keeps the context.
  refine (Session.setAppender_yields hI hs (hremake _ _)).bind ?_
  rintro - s₁ hs₁ rfl
  refine (Session.copy_yields hs₁ fields).bind ?_
  rintro kept s₂ hs₂ ⟨rfl, -⟩
  refine (Session.setAppender_yields hI hs₂ ?_).mono (fun _ h => h) fun _ _ _ _ => trivial
  rw [appender_received hr]
  exact ⟨(hremake _ _).typeName.trans (hremake _ _).typeName.symm, (hremake _ _).edits.trans (hremake _ _).edits.symm⟩

theorem applyEdit_keeps (hI : Editing owned I) {fields : Handle} (hm : fields.IsOwned owned)
    (edit : Edit) : (applyEdit fields edit).Keeps I := by
  unfold applyEdit
  refine .get fun s hs => ?_
  cases fields with
  | live m =>
    cases edit with
    | set k v =>
      refine (Session.checkKey_keeps k s hs).bind fun _ s₁ hs₁ _ => ?_
      exact .get (Session.setMapping_keeps hI (hm m rfl) _ s₁ hs₁)
    | pop k =>
      refine (Session.checkKey_keeps k s hs).bind fun _ s₁ hs₁ _ => ?_
      exact .get (Session.setMapping_keeps hI (hm m rfl) _ s₁ hs₁)
  | other v => cases v <;> cases edit <;> exact hs
  | _ => cases edit <;> exact hs

theorem applyEdits_keeps (hI : Editing owned I) {fields : Handle} {edits : List Edit}
    (h : edits = [] ∨ fields.IsOwned owned) : (edits.forM (applyEdit fields)).Keeps I := by
  induction edits with
  | nil => exact .pure _
  | cons edit edits ih =>
    have hm := h.resolve_left (List.cons_ne_nil _ _)
    exact Session.Keeps.bind (applyEdit_keeps hI hm edit) fun _ => ih (.inr hm)

/-- What an appender does with an entry is a step on the appender, on the standard output or, if it
is one that edits, on the entry's fields. -/
theorem receive_keeps {r : AppenderRef} {fields : Handle} (hI : Receptive owned r fields I)
    (ctx : Option ContextRef) (level msg : Value) : (receive r ctx level fields msg).Keeps I := by
  unfold receive
  refine .get fun s hs => ?_
  -- An appender becomes another one of its kind, so that it still edits what it did before.
  have hset : ∀ {s₁ : Store} {a : Appender}, I s₁ → a.SameKind (s₁.appender r) →
      (Session.setAppender r a).Yields s₁ I fun _ _ => True := fun hs₁ he =>
    (Session.setAppender_yields hI hs₁ he).mono (fun _ h => h) fun _ _ _ _ => trivial
  cases ha : s.appender r with
  | recording cs rs =>
    exact keepRecord_keeps hI hs (by rw [ha]; nofun) (by rw [ha]; exact fun _ _ => ⟨rfl, rfl⟩) ctx level msg
  | editing edits cs rs =>
    have hk : (keepRecord (.editing edits) r ctx level fields msg).Yields s I fun _ _ => True :=
      keepRecord_keeps hI hs (by rw [ha]; nofun) (by rw [ha]; exact fun _ _ => ⟨rfl, rfl⟩) ctx level msg
    have he := hI.edits hs
    rw [ha] at he
    exact hk.bind fun _ s₁ hs₁ _ => applyEdits_keeps hI.toEditing he s₁ hs₁
  | stream text =>
    refine .lift_bind hs fun line _ => ?_
    exact hset hs (by rw [ha]; exact ⟨rfl, rfl⟩)
  | console =>
    dsimp only
    cases hc : s.stdout with
    | none => exact hs
    | some channel =>
      refine .lift_bind hs fun line _ => ?_
      exact ⟨hI.printed _ hs, trivial⟩
  | numbered threshold records =>
    cases level with
    | level l =>
      refine (Session.copy_yields hs fields).bind ?_
      rintro context s₁ hs₁ ⟨rfl, -⟩
      split
      · refine .lift_bind hs₁ fun message _ => ?_
        exact hset hs₁ (by rw [ha]; exact ⟨rfl, rfl⟩)
      · exact ⟨hs₁, trivial⟩
    | _ => exact hs
  | structured logger records =>
    refine .lift_bind hs fun bound _ => .lift_bind hs fun method _ => ?_
    exact (hset hs (by rw [ha]; exact ⟨rfl, rfl⟩)).bind fun _ s₁ hs₁ _ => Session.Keeps.lift _ s₁ hs₁
  | broken error => exact hs
  | plain v => cases v <;> exact hs

/-! ## How an appender fails -/

/-- The failures by which a dispatch ends once its entry is delivered. -/
def Failure.isEnding : Failure → Bool
  | .panicked _ | .exited | .ended => true
  | _ => false

theorem Value.isEnding_raise (v : Value) : v.raise.isEnding = false := by
  unfold Value.raise
  split <;> rfl

theorem Supplied.isEnding_of_copy {fields : Supplied} {f : Failure} (h : fields.copy = .error f) :
    f.isEnding = false := by
  unfold copy at h
  split at h
  · cases h; rfl
  · cases h
  · split at h <;> cases h
    rfl

/-- A line is refused for its fields alone: they are no mapping, have no order, or hold a number with
too many digits. -/
theorem formatLine_isEnding {l : Level} {fields : Supplied} {msg : Text} {f : Failure}
    (h : formatLine (.level l) fields (.text msg) = .error f) : f.isEnding = false := by
  unfold formatLine at h
  split at h
  · cases h
  · cases fields with
    | fields g =>
      simp only [Supplied.mapping, bind, Except.bind] at h
      cases hs : g.sorted with
      | error types => rw [hs] at h; cases h; rfl
      | ok entries =>
        rw [hs] at h
        cases hr : Value.reprDict entries with
        | ok text => simp [hr, Value.shown, pure, Except.pure] at h
        | error e =>
          have he : e = .numeralTooLong := Value.repr_error _ hr
          simp [hr, Value.shown, pure, Except.pure] at h
          rw [← h, he]
          rfl
    | _ => cases h; rfl

theorem raiseAny_isEnding {error : Option Value} {f : Failure} (h : raiseAny error = .error f) :
    f.isEnding = false := by
  cases error with
  | none => cases h
  | some error =>
    cases h
    exact error.isEnding_raise

theorem bindFields_isEnding {logger : StructuredLogger} {fields : Supplied} {f : Failure}
    (h : logger.bindFields fields = .error f) : f.isEnding = false := by
  unfold StructuredLogger.bindFields at h
  split at h
  · cases h
  · cases fields with
    | fields g =>
      dsimp only at h
      split at h
      · cases hbind : raiseAny (logger.bind g) with
        | ok _ =>
          rw [hbind] at h
          cases h
        | error e =>
          rw [hbind] at h
          cases h
          exact raiseAny_isEnding hbind
      · cases h; rfl
    | _ => cases h; rfl

theorem methodFor_isEnding {level : Value} {f : Failure} (h : methodFor level = .error f) :
    f.isEnding = false := by
  unfold methodFor at h
  split at h <;> cases h <;> rfl

theorem applyEdit_fails (fields : Handle) (edit : Edit) :
    (applyEdit fields edit).Fails fun f => f.isEnding = false := by
  have hkey : ∀ k : Value, (Session.checkKey k).Fails fun f => f.isEnding = false := by
    intro k
    unfold Session.checkKey
    split
    · exact .throw rfl
    · exact .pure _
  unfold applyEdit
  refine .bind .get fun s => ?_
  dsimp only
  split
  · exact .bind (hkey _) fun _ => .bind .get fun _ => .modify _
  · exact .bind (hkey _) fun _ => .bind .get fun _ => .modify _
  all_goals exact .throw rfl

theorem applyEdits_fails (fields : Handle) (edits : List Edit) :
    (edits.forM (applyEdit fields)).Fails fun f => f.isEnding = false := by
  induction edits with
  | nil => exact .pure _
  | cons edit edits ih => exact .bind (applyEdit_fails fields edit) fun _ => ih

theorem copy_fails (fields : Handle) : (Session.copy fields).Fails fun f => f.isEnding = false :=
  .bind .get fun _ => .lift fun _ => Supplied.isEnding_of_copy

theorem keepRecord_fails (remake : List (Option ContextRef) → List Record → Appender)
    (r : AppenderRef) (ctx : Option ContextRef) (level : Value) (fields : Handle) (msg : Value) :
    (keepRecord remake r ctx level fields msg).Fails fun f => f.isEnding = false :=
  .bind .get fun _ => .bind (.modify _) fun _ => .bind (copy_fails fields) fun _ => .modify _

/-- An appender never fails in the way in which a dispatch ends. -/
theorem receive_fails (r : AppenderRef) (ctx : Option ContextRef) (l : Level) (fields : Handle)
    (msg : Text) : (receive r ctx (.level l) fields (.text msg)).Fails fun f => f.isEnding = false := by
  unfold receive
  refine .bind .get fun s => ?_
  cases s.appender r with
  | recording => exact keepRecord_fails _ r ctx _ fields _
  | editing edits => exact .bind (keepRecord_fails _ r ctx _ fields _) fun _ => applyEdits_fails fields edits
  | stream => exact .bind (.lift fun _ => formatLine_isEnding) fun _ => .modify _
  | console =>
    dsimp only
    cases s.stdout with
    | none => exact .throw rfl
    | some channel => exact .bind (.lift fun _ => formatLine_isEnding) fun _ => .modify _
  | numbered threshold records =>
    refine .bind (copy_fails fields) fun context => ?_
    split
    · exact .bind (.lift nofun) fun _ => .modify _
    · exact .pure _
  | structured logger records =>
    refine .bind (.lift fun _ => bindFields_isEnding) fun bound => ?_
    exact .bind (.lift fun _ => methodFor_isEnding) fun method => .bind (.modify _) fun _ =>
      .lift fun _ => raiseAny_isEnding
  | broken error => exact .throw error.isEnding_raise
  | plain v => cases v <;> exact .throw rfl

end ContextLog
