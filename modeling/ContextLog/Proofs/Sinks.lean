import ContextLog.Proofs.Receive
import ContextLog.Proofs.Writes
/-!
# What entries leave in the sinks

An appender changes itself, the standard output and mappings, and nothing else (`receive_handled`). What it
makes of itself and of the standard output is settled by these and by the entry that it is handed
(`receive_sinks`), so the sinks after any run are what its deliveries make of them one after the other.
-/

namespace ContextLog

variable {s s' : Store} {r : AppenderRef} {h h' : Handle}

/-! ## All that an appender changes -/

/-- The second store is the first one with other appenders, another standard output and other mappings,
of which there are as many. -/
def Store.Handled (s s' : Store) : Prop :=
  ∃ mappings appenders stdout, s' = { s with mappings, appenders, stdout } ∧
    mappings.length = s.mappings.length

theorem Store.Handled.receptive (s : Store) (r : AppenderRef) (h : Handle) :
    Store.Receptive (fun _ => True) r h s.Handled where
  edited m f _ := by
    rintro ⟨ms, as, out, rfl, hms⟩
    exact ⟨_, as, out, rfl, by simpa using hms⟩
  received a _ := by
    rintro ⟨ms, as, out, rfl, hms⟩
    exact ⟨ms, _, out, rfl, hms⟩
  printed channel := by
    rintro ⟨ms, as, out, rfl, hms⟩
    exact ⟨ms, as, _, rfl, hms⟩
  edits _ := .inr fun _ _ => trivial

theorem receive_handled (r : AppenderRef) (ctx : Option ContextRef) (level : Value) (h : Handle)
    (msg : Value) (s : Store) : s.Handled ((receive r ctx level h msg).leaves s) :=
  (receive_keeps (Store.Handled.receptive s r h) ctx level msg).leaves ⟨_, _, _, rfl, rfl⟩

/-! ## Sinks -/

/-- What appenders have made of the entries that they were handed. -/
structure Sinks where
  appenders : List Appender
  stdout : Option Channel

def Store.sinks (s : Store) : Sinks := ⟨s.appenders, s.stdout⟩

/-- Fields in a store of their own. -/
def Supplied.mappings : Supplied → List Fields
  | fields f => [f]
  | _ => []

/-- The handle of fields in a store of their own. -/
def Supplied.handle : Supplied → Handle
  | nothing => .nothing
  | fields _ => .live ⟨0⟩
  | other v => .other v

/-- A store with these sinks that holds nothing else but some fields. -/
def Sinks.holding (k : Sinks) (x : Supplied) : Store :=
  { mappings := x.mappings, appenders := k.appenders, stdout := k.stdout }

/-- What becomes of the sinks when an entry is handed to its appender. -/
def Sinks.take (k : Sinks) (d : Delivery) : Sinks :=
  ((receive d.appender d.context d.level d.fields.handle d.msg).leaves (k.holding d.fields)).sinks

theorem applyEdits_sinks (h : Handle) (edits : List Edit) (s : Store) :
    ((edits.forM (applyEdit h)).leaves s).sinks = s.sinks := by
  have hediting : Store.Editing (fun _ => True) (·.sinks = s.sinks) := ⟨fun _ _ _ h => h⟩
  exact (applyEdits_keeps hediting (.inr fun _ _ => trivial)).leaves rfl

/-- What touches no sink may follow. -/
theorem seq_sinks {x y : Session Unit} (hy : ∀ s, (y.leaves s).sinks = s.sinks) :
    ((do x; y : Session Unit).leaves s).sinks = (x.leaves s).sinks := by
  cases hx : x s with
  | ok _ s₁ => rw [Session.leaves_congr (Session.run_seq_ok hx), hy, Session.leaves_ok hx]
  | error f s₁ => rw [Session.leaves_error (Session.run_bind_error hx), Session.leaves_error hx]

theorem keepRecord_sinks (remake : List (Option ContextRef) → List Record → Appender)
    (ha : s'.appenders = s.appenders) (ho : s'.stdout = s.stdout) (hf : s'.supplied h' = s.supplied h)
    (ctx : Option ContextRef) (level msg : Value) :
    ((keepRecord remake r ctx level h' msg).leaves s').sinks =
      ((keepRecord remake r ctx level h msg).leaves s).sinks := by
  have happ : s'.appender r = s.appender r := by rw [Store.appender, Store.appender, ha]
  unfold Session.leaves
  rw [keepRecord_run, keepRecord_run, hf, happ, ha]
  cases (s.supplied h).copy with
  | ok kept => simp only [Store.sinks, ho]
  | error f => simp only [Store.sinks, ho]

/-- What may fail is the same, so that what follows decides. -/
theorem lift_then_sinks {α : Type} {f f' : α → Session Unit} (x : Except Failure α)
    (hsinks : s'.sinks = s.sinks) (hf : ∀ a, ((f' a).leaves s').sinks = ((f a).leaves s).sinks) :
    ((Session.lift x >>= f').leaves s').sinks = ((Session.lift x >>= f).leaves s).sinks := by
  cases x with
  | ok a => exact hf a
  | error e => exact hsinks

theorem setAppender_sinks (hsinks : s'.sinks = s.sinks) (r : AppenderRef) (a : Appender) :
    ((Session.setAppender r a).leaves s').sinks = ((Session.setAppender r a).leaves s).sinks :=
  congrArg (fun k : Sinks => { k with appenders := k.appenders.set r.index a }) hsinks

/-- What an appender makes of the sinks depends on the sinks and on the entry. -/
theorem receive_sinks (ha : s'.appenders = s.appenders) (ho : s'.stdout = s.stdout)
    (hf : s'.supplied h' = s.supplied h) (ctx : Option ContextRef) (level msg : Value) :
    ((receive r ctx level h' msg).leaves s').sinks = ((receive r ctx level h msg).leaves s).sinks := by
  have happ : s'.appender r = s.appender r := by rw [Store.appender, Store.appender, ha]
  have hsinks : s'.sinks = s.sinks := by rw [Store.sinks, Store.sinks, ha, ho]
  unfold receive
  rw [Session.leaves_congr (Session.run_bind_ok Session.run_get),
    Session.leaves_congr (Session.run_bind_ok Session.run_get), happ]
  cases hr : s.appender r with
  | recording cs rs => exact keepRecord_sinks .recording ha ho hf ctx level msg
  | editing edits cs rs =>
    dsimp only
    rw [seq_sinks (applyEdits_sinks h' edits), seq_sinks (applyEdits_sinks h edits)]
    exact keepRecord_sinks (.editing edits) ha ho hf ctx level msg
  | stream text =>
    dsimp only
    rw [hf]
    exact lift_then_sinks _ hsinks fun line => setAppender_sinks hsinks r _
  | console =>
    dsimp only
    rw [hf, ho]
    cases s.stdout with
    | none => exact hsinks
    | some channel =>
      dsimp only
      refine lift_then_sinks _ hsinks fun line => ?_
      exact congrArg (Sinks.mk · (some { channel with text := channel.text ++ line })) ha
  | numbered threshold records =>
    cases level with
    | level l =>
      show ((Session.lift (s'.supplied h').copy >>= _).leaves s').sinks =
        ((Session.lift (s.supplied h).copy >>= _).leaves s).sinks
      rw [hf]
      refine lift_then_sinks _ hsinks fun kept => ?_
      split
      · exact lift_then_sinks _ hsinks fun message => setAppender_sinks hsinks r _
      · exact hsinks
    | _ => exact hsinks
  | structured logger records =>
    dsimp only
    rw [hf]
    refine lift_then_sinks _ hsinks fun bound => lift_then_sinks _ hsinks fun method => ?_
    -- What the logger raises comes after the call has been noted.
    have hcall : ∀ s, ((Session.lift (raiseAny (logger.call method bound msg))).leaves s).sinks = s.sinks := by
      intro s
      cases logger.call method bound msg <;> rfl
    rw [seq_sinks hcall, seq_sinks hcall]
    exact setAppender_sinks hsinks r _
  | broken error => exact hsinks
  | plain v => cases v <;> exact hsinks

theorem supplied_handle (s s' : Store) (h : Handle) (hm : s'.mappings = (s.supplied h).mappings) :
    s'.supplied (s.supplied h).handle = s.supplied h := by
  cases h with
  | nothing => rfl
  | live m => simp only [Store.supplied, Supplied.handle, Store.mapping, hm, Supplied.mappings]; rfl
  | vacant => simp only [Store.supplied, Supplied.handle, Store.mapping, hm, Supplied.mappings]; rfl
  | other v =>
    cases v with
    | dict es =>
      simp only [Store.supplied, Supplied.ofValue, Supplied.handle, Store.mapping, hm, Supplied.mappings]
      rfl
    | _ => rfl

/-- The sinks after an entry has been handed to its appender are those before it, and the entry, taken
together. -/
theorem receive_take (r : AppenderRef) (ctx : Option ContextRef) (level : Value) (h : Handle) (msg : Value)
    (s : Store) :
    ((receive r ctx level h msg).leaves s).sinks = s.sinks.take ⟨r, ctx, level, s.supplied h, msg⟩ := by
  show _ = ((receive r ctx level (s.supplied h).handle msg).leaves (s.sinks.holding (s.supplied h))).sinks
  have hsupplied := supplied_handle s (s.sinks.holding (s.supplied h)) h rfl
  exact receive_sinks (by rfl) (by rfl) hsupplied.symm ctx level msg

/-! ## Entries kept in memory -/

def Sinks.appender (k : Sinks) (r : AppenderRef) : Appender := k.appenders[r.index]?.getD (.plain .none)

/-- What an appender keeps of an entry that it is handed, if the fields can be copied. -/
def Delivery.record? (d : Delivery) : Option Record :=
  match d.fields.copy with
  | .ok kept => some ⟨d.level, kept, d.msg⟩
  | .error _ => none

theorem receive_others {q : AppenderRef} (hq : q ≠ r) (ctx : Option ContextRef) (level : Value) (h : Handle)
    (msg : Value) (s : Store) : ((receive r ctx level h msg).leaves s).appender q = s.appender q := by
  have hI : Store.Receptive (fun _ => True) r h (·.appender q = s.appender q) :=
    { edited := fun _ _ _ hs => hs
      received := fun a _ hs => (appender_received_of_ne hq a).trans hs
      printed := fun _ hs => hs
      edits := fun _ => .inr fun _ _ => trivial }
  exact (receive_keeps hI ctx level msg).leaves rfl

theorem Sinks.take_others (k : Sinks) {d : Delivery} {q : AppenderRef} (hq : q ≠ d.appender) :
    (k.take d).appender q = k.appender q :=
  receive_others hq d.context d.level d.fields.handle d.msg _

/-- From one appender to the other, entries have been handed to it: it has noted the context of each, and it has a
record of each whose fields can be copied. -/
structure Appender.Kept (a : Appender) (ds : List Delivery) (a' : Appender) : Prop where
  kind : a'.SameKind a
  keepsRecords : a'.keepsRecords
  contexts : a'.contexts = a.contexts ++ ds.map (·.context)
  records : a'.records = a.records ++ ds.filterMap Delivery.record?

namespace Appender

variable {a a' a'' : Appender} {ds ds' : List Delivery}

theorem Kept.refl (h : a.keepsRecords) : a.Kept [] a :=
  ⟨⟨rfl, rfl⟩, h, (List.append_nil _).symm, (List.append_nil _).symm⟩

theorem Kept.trans (h : a.Kept ds a') (h' : a'.Kept ds' a'') : a.Kept (ds ++ ds') a'' where
  kind := ⟨h'.kind.typeName.trans h.kind.typeName, h'.kind.edits.trans h.kind.edits⟩
  keepsRecords := h'.keepsRecords
  contexts := by rw [h'.contexts, h.contexts, List.map_append, List.append_assoc]
  records := by rw [h'.records, h.records, List.filterMap_append, List.append_assoc]

end Appender

theorem keepRecord_kept (hr : s.appender r ≠ .plain .none)
    (remake : List (Option ContextRef) → List Record → Appender)
    (hkind : ∀ cs rs, (remake cs rs).SameKind (s.appender r)) (hkeeps : ∀ cs rs, (remake cs rs).keepsRecords)
    (hcontexts : ∀ cs rs, (remake cs rs).contexts = cs)
    (hrecords : ∀ cs rs, (remake cs rs).records = rs) (ctx : Option ContextRef) (level msg : Value) :
    (s.appender r).Kept [⟨r, ctx, level, s.supplied h, msg⟩]
      (((keepRecord remake r ctx level h msg).leaves s).appender r) := by
  have hrun := keepRecord_run remake r ctx level h msg s
  cases hc : (s.supplied h).copy with
  | ok kept =>
    have hrecord : Delivery.record? ⟨r, ctx, level, s.supplied h, msg⟩ = some ⟨level, kept, msg⟩ := by
      simp only [Delivery.record?, hc]
    rw [hc] at hrun
    rw [Session.leaves_ok hrun, appender_received hr]
    exact ⟨hkind _ _, hkeeps _ _, hcontexts _ _, by rw [hrecords, List.filterMap_cons_some hrecord]; rfl⟩
  | error f =>
    have hrecord : Delivery.record? ⟨r, ctx, level, s.supplied h, msg⟩ = none := by
      simp only [Delivery.record?, hc]
    rw [hc] at hrun
    rw [Session.leaves_error hrun, appender_received hr]
    refine ⟨hkind _ _, hkeeps _ _, hcontexts _ _, ?_⟩
    rw [hrecords, List.filterMap_cons_none hrecord, List.filterMap_nil, List.append_nil]

/-- An appender that keeps entries keeps what it is handed behind what it has. -/
theorem receive_kept (hr : (s.appender r).keepsRecords) (ctx : Option ContextRef) (level msg : Value) :
    (s.appender r).Kept [⟨r, ctx, level, s.supplied h, msg⟩]
      (((receive r ctx level h msg).leaves s).appender r) := by
  have hne : s.appender r ≠ .plain .none := fun he => by rw [he] at hr; cases hr
  have hkept := fun remake hkind hkeeps hcontexts hrecords =>
    keepRecord_kept (h := h) hne remake hkind hkeeps hcontexts hrecords ctx level msg
  unfold receive
  rw [Session.leaves_congr (Session.run_bind_ok Session.run_get)]
  cases ha : s.appender r with
  | recording cs rs =>
    rw [ha] at hkept
    exact hkept .recording (fun _ _ => ⟨rfl, rfl⟩) (fun _ _ => rfl) (fun _ _ => rfl) fun _ _ => rfl
  | editing edits cs rs =>
    have happ : ∀ s, (((keepRecord (.editing edits) r ctx level h msg >>= fun _ =>
        edits.forM (applyEdit h)).leaves s).appender r) =
        ((keepRecord (.editing edits) r ctx level h msg).leaves s).appender r := fun s =>
      congrArg (Sinks.appender · r) (seq_sinks (applyEdits_sinks h edits))
    dsimp only
    rw [happ]
    rw [ha] at hkept
    exact hkept (.editing edits) (fun _ _ => ⟨rfl, rfl⟩) (fun _ _ => rfl) (fun _ _ => rfl) fun _ _ => rfl
  | _ => rw [ha] at hr; cases hr

/-- Fields given as a value are copied to the same mapping however they are taken. -/
theorem Supplied.copy_handle (k : Sinks) (x : Supplied) : ((k.holding x).supplied x.handle).copy = x.copy := by
  cases x with
  | nothing => rfl
  | fields f => rfl
  | other v =>
    cases v with
    | dict es => rfl
    | _ => rfl

theorem Sinks.take_kept {k : Sinks} {d : Delivery} (hd : (k.appender d.appender).keepsRecords) :
    (k.appender d.appender).Kept [d] ((k.take d).appender d.appender) := by
  have htaken := receive_kept (s := k.holding d.fields) (h := d.fields.handle) hd d.context d.level d.msg
  have hrecord : Delivery.record? ⟨d.appender, d.context, d.level, (k.holding d.fields).supplied d.fields.handle,
      d.msg⟩ = d.record? := by
    simp only [Delivery.record?, Supplied.copy_handle]
  obtain ⟨hkind, hkeeps, hcontexts, hrecords⟩ := htaken
  refine ⟨hkind, hkeeps, hcontexts, hrecords.trans ?_⟩
  simp only [List.filterMap_cons, hrecord]
  rfl

/-- What an appender keeps of entries that are handed on one after the other: its own ones, in order. -/
theorem Sinks.takes_kept {k : Sinks} {q : AppenderRef} (hq : (k.appender q).keepsRecords) (ds : List Delivery) :
    (k.appender q).Kept (ds.filter (·.appender = q)) ((ds.foldl Sinks.take k).appender q) := by
  induction ds generalizing k with
  | nil => exact .refl hq
  | cons d ds ih =>
    rw [List.foldl_cons]
    by_cases hd : q = d.appender
    · subst hd
      have htaken := take_kept hq
      rw [List.filter_cons_of_pos (by simp)]
      exact htaken.trans (ih htaken.keepsRecords)
    · rw [List.filter_cons_of_neg (by simpa using Ne.symm hd), ← k.take_others hd]
      exact ih (by rwa [k.take_others hd])

end ContextLog
