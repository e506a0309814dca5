import ContextLog.Proofs.Sinks
import ContextLog.Proofs.TextArguments
/-!
# What the back ends are handed

Each kind of appender puts an entry into a form of its own: a record, a line, a call of a numbered logger, or a
call of a structured one. An entry is plain if all of these forms exist: its fields have texts as keys and values
with representations, and its message shows itself as it is. A plain entry is taken by every appender whose back
end is there and accepts all that it is handed (`receive_plain`), and what the appender makes of it is
`Appender.hand`.
-/

namespace ContextLog

open Session

variable {s : Store} {r : AppenderRef} {h : Handle} {f : Fields} {k : Sinks}

/-! ## Plain entries -/

/-- The fields can be written, sorted and passed by name. -/
structure Fields.IsPlain (f : Fields) : Prop where
  keys : HaveTextKeys f.entries
  values : ∀ e ∈ f.entries, ∃ shown, e.2.repr = .ok shown

instance (f : Fields) : Decidable f.IsPlain :=
  decidable_of_iff (∀ e ∈ f.entries, e.1.isText ∧ e.2.repr.isOk) <| by
    have hok : ∀ x : Except Failure String, x.isOk ↔ ∃ shown, x = .ok shown := fun x => by
      cases x with
      | ok shown => exact ⟨fun _ => ⟨shown, rfl⟩, fun _ => rfl⟩
      | error f => exact ⟨nofun, nofun⟩
    constructor
    · exact fun h => ⟨fun e he => (h e he).1, fun e he => (hok _).1 (h e he).2⟩
    · exact fun ⟨hkeys, hvalues⟩ e he => ⟨hkeys e he, (hok _).2 (hvalues e he)⟩

/-- Plain fields are supplied. -/
def Supplied.IsPlain : Supplied → Prop
  | .fields f => f.IsPlain
  | _ => False

theorem Supplied.IsPlain.fields {x : Supplied} (h : x.IsPlain) : ∃ f, x = .fields f ∧ f.IsPlain := by
  cases x with
  | fields f => exact ⟨f, rfl, h⟩
  | _ => exact h.elim

instance : (fields : Supplied) → Decidable fields.IsPlain
  | .fields f => inferInstanceAs (Decidable f.IsPlain)
  | .nothing | .other _ => isFalse id

/-- A text does not show itself as another one. -/
def Value.ShowsItself : Value → Prop
  | .text t => t.shown = Option.none
  | _ => True

instance : (v : Value) → Decidable v.ShowsItself
  | .text t => inferInstanceAs (Decidable (t.shown = none))
  | .none | .bool _ | .int _ | .float _ | .bytes _ | .level _ | .list _ | .tuple _ | .dict _ | .record _ _
  | .error _ _ _ _ | .object _ | .explosive _ _ _ _ => isTrue trivial

/-- The text that comes of a value which is no text shows itself as it is. -/
theorem ofString_shows {x : Except Failure String} {t : Text}
    (h : (do return .ofString (← x) : Except Failure Text) = .ok t) : t.shown = none := by
  cases x with
  | error f => cases h
  | ok s =>
    cases h
    rfl

theorem render_shows {v : Value} {t : Text} (hv : v.ShowsItself) (h : render v = .ok t) : t.shown = none := by
  cases v with
  | text t' =>
    cases h
    exact hv
  | _ => exact ofString_shows h

theorem printStyle_shows {first : Text} {rest : List Value} {t : Text} (h : printStyle first rest = .ok t) :
    t.shown = none := by
  unfold printStyle at h
  cases hparts : rest.mapM render with
  | error f =>
    rw [hparts] at h
    cases h
  | ok parts =>
    rw [hparts] at h
    cases h
    rfl

/-- A message made from arguments that show themselves as they are does so too. -/
theorem formatMessage_shows {args : List Value} {templated : Bool} {t : Text}
    (hargs : ∀ v ∈ args, v.ShowsItself) (h : (formatMessage args templated).2 = .ok t) : t.shown = none := by
  cases args with
  | nil =>
    cases h
    rfl
  | cons first rest =>
    simp only [formatMessage] at h
    cases hfirst : render first with
    | error f =>
      rw [hfirst] at h
      cases h
    | ok text =>
      rw [hfirst] at h
      dsimp only at h
      split at h
      · -- A single argument is the message.
        cases h
        exact render_shows (hargs first List.mem_cons_self) hfirst
      · split at h
        · split at h
          · cases h
            rfl
          · split at h
            · split at h
              · exact printStyle_shows h
              · cases h
            · cases h
        · exact printStyle_shows h

/-- A plain entry on its way through a context, with the line that shows it. -/
structure PlainEntry where
  context : Option ContextRef
  level : Level
  fields : Fields
  msg : Text
  line : String
  isPlain : fields.IsPlain
  shown : msg.shown = none
  isLine : formatLine (.level level) (.fields fields) (.text msg) = .ok line

namespace PlainEntry

/-- The entry as it is handed to an appender. -/
def delivery (e : PlainEntry) (r : AppenderRef) : Delivery :=
  ⟨r, e.context, .level e.level, .fields e.fields, .text e.msg⟩

/-- Plain fields and a message that shows itself make an entry. -/
theorem of_isPlain (hf : f.IsPlain) {m : Text} (hm : m.shown = none) (context : Option ContextRef) (l : Level) :
    ∃ e : PlainEntry, e.context = context ∧ e.level = l ∧ e.fields = f ∧ e.msg = m := by
  obtain ⟨es, -, hline⟩ := formatLine_shown hf.keys hf.values
  exact ⟨⟨context, l, f, m, lineOf l m es, hf, hm, hline l m⟩, rfl, rfl, rfl, rfl⟩

end PlainEntry

/-! ## Back ends -/

/-- A structured logger that raises nothing, whichever names fields are bound by. -/
structure StructuredLogger.AcceptsAll (logger : StructuredLogger) : Prop where
  bind : ∀ f : Fields, Fields.HaveTextKeys f.entries → logger.bind f = none
  call : ∀ method f msg, logger.call method f msg = none

/-- The kinds of appenders whose back end takes every entry: a list of records, a text, the standard output if
there is one, a numbered logger that drops no level, and a structured logger that accepts every call. -/
def Sinks.Accepts (k : Sinks) (r : AppenderRef) : Prop :=
  match k.appender r with
  | .recording _ _ | .stream _ => True
  | .structured logger _ => logger.AcceptsAll
  | .console => k.stdout.isSome
  | .numbered threshold _ => threshold ≤ Level.debug.backendNumber
  | .editing _ _ _ | .broken _ | .plain _ => False

theorem Sinks.Accepts.of_appender {k' : Sinks} (ha : k.Accepts r) (happ : k'.appender r = k.appender r)
    (ho : k.stdout.isSome → k'.stdout.isSome) : k'.Accepts r := by
  unfold Accepts at ha ⊢
  rw [happ]
  cases hr : k.appender r with
  | console =>
    rw [hr] at ha
    exact ho ha
  | _ =>
    rw [hr] at ha
    exact ha

/-- What an appender makes of a plain entry: the record; its line; a call of the numbered logger at the number of
the level, with the message and the fields; or a call of the level's method with the message, on a structured logger
that the fields are bound to. -/
def Appender.hand (a : Appender) (e : PlainEntry) : Appender :=
  match a with
  | recording contexts records =>
    recording (contexts ++ [e.context]) (records ++ [⟨.level e.level, e.fields, .text e.msg⟩])
  | stream text => stream (text ++ e.line)
  | numbered threshold records =>
    numbered threshold (records ++ [⟨e.level.backendNumber, e.msg.content, e.fields⟩])
  | structured logger records => structured logger (records ++ [⟨e.level.methodName, e.fields, .text e.msg⟩])
  | a => a

/-- What becomes of the sinks when an appender is handed a plain entry: one that writes to the standard output puts
the line there. -/
def Sinks.hand (k : Sinks) (r : AppenderRef) (e : PlainEntry) : Sinks :=
  match k.appender r with
  | .console => { k with stdout := k.stdout.map fun channel => { channel with text := channel.text ++ e.line } }
  | a => { k with appenders := k.appenders.set r.index (a.hand e) }

/-- The store with other sinks. -/
def Store.withSinks (s : Store) (k : Sinks) : Store := { s with appenders := k.appenders, stdout := k.stdout }

theorem methodFor_level (l : Level) : methodFor (.level l) = .ok l.methodName := by cases l <;> rfl

/-- Plain fields are bound by name as they are. -/
theorem Fields.IsPlain.bindFields (hf : f.IsPlain) {logger : StructuredLogger} (hlogger : logger.AcceptsAll) :
    logger.bindFields (.fields f) = .ok f := by
  have hall : f.keys.all (·.isText) = true := by
    rw [List.all_eq_true]
    intro k hk
    obtain ⟨e, he, rfl⟩ := List.mem_map.1 hk
    exact hf.keys e he
  unfold StructuredLogger.bindFields
  cases hp : (Supplied.fields f).isPresent with
  | false =>
    -- Nothing is bound if there are no fields.
    have hempty : f = .empty := Fields.ext (by simpa [Supplied.isPresent, Fields.isEmpty] using hp)
    rw [hempty]
    rfl
  | true =>
    dsimp only
    rw [hall, hlogger.bind f hf.keys]
    rfl

/-- A plain entry is put into the form of the appender. -/
theorem receive_plain (e : PlainEntry) (ha : s.sinks.Accepts r) (hs : s.supplied h = .fields e.fields) :
    receive r e.context (.level e.level) h (.text e.msg) s = .ok () (s.withSinks (s.sinks.hand r e)) := by
  have happ : s.sinks.appender r = s.appender r := rfl
  unfold Sinks.Accepts at ha
  unfold receive Sinks.hand
  rw [run_bind_ok run_get]
  rw [happ] at ha ⊢
  cases hr : s.appender r with
  | recording contexts records =>
    have hkept := keepRecord_run .recording r e.context (.level e.level) h (.text e.msg) s
    rw [hs, hr] at hkept
    exact hkept
  | stream text =>
    dsimp only
    rw [hs, e.isLine]
    rfl
  | console =>
    rw [hr] at ha
    dsimp only
    cases ho : s.stdout with
    | none =>
      have hsome : s.stdout.isSome := ha
      rw [ho] at hsome
      cases hsome
    | some channel =>
      dsimp only
      rw [hs, e.isLine]
      simp only [Store.withSinks, Store.sinks, ho]
      rfl
  | numbered threshold records =>
    rw [hr] at ha
    have hle : threshold ≤ e.level.backendNumber := by
      have hthreshold : threshold ≤ 10 := ha
      cases e.level <;> simp only [Level.backendNumber] <;> omega
    have hcopy : Session.copy h s = .ok e.fields s := by
      unfold Session.copy
      rw [run_bind_ok run_get, hs]
      rfl
    have hshown : (Value.text e.msg).shown = .ok e.msg.content := by
      show Except.ok e.msg.display = _
      unfold Text.display
      rw [e.shown]
      rfl
    dsimp only
    rw [run_bind_ok hcopy, if_pos hle, hshown]
    rfl
  | structured logger records =>
    rw [hr] at ha
    have hlogger : logger.AcceptsAll := ha
    dsimp only
    rw [hs, e.isPlain.bindFields hlogger, methodFor_level]
    show ((do
      setAppender r (.structured logger (records ++ [⟨e.level.methodName, e.fields, .text e.msg⟩]))
      lift (raiseAny (logger.call e.level.methodName e.fields (.text e.msg))) : Session Unit) s) = _
    rw [hlogger.call]
    rfl
  | editing edits contexts records => rw [hr] at ha; exact ha.elim
  | broken error => rw [hr] at ha; exact ha.elim
  | plain v => rw [hr] at ha; exact ha.elim

/-! ## Runs of plain entries -/

/-- An appender that is handed an entry stays one of its kind. -/
theorem Appender.typeName_hand (a : Appender) (e : PlainEntry) : (a.hand e).typeName = a.typeName := by
  cases a <;> rfl

namespace Sinks

theorem appender_hand (ha : k.Accepts r) (e : PlainEntry) :
    (k.hand r e).appender r = (k.appender r).hand e := by
  unfold Accepts at ha
  unfold hand
  split
  · rename_i hr
    rw [hr]
    exact hr
  · have hne : k.appender r ≠ .plain .none := fun he => by rw [he] at ha; exact ha
    exact appender_received (s := { appenders := k.appenders }) hne _

theorem accepts_hand (ha : k.Accepts r) (e : PlainEntry) : (k.hand r e).Accepts r := by
  have happ := appender_hand ha e
  unfold Accepts at ha ⊢
  rw [happ]
  cases hr : k.appender r with
  | console =>
    rw [hr] at ha
    show (k.hand r e).stdout.isSome
    simpa [hand, hr] using ha
  | _ =>
    rw [hr] at ha
    exact ha

/-- The sinks take a plain entry in the form of its appender. -/
theorem take_plain (ha : k.Accepts r) (e : PlainEntry) : k.take (e.delivery r) = k.hand r e := by
  have hrun := receive_plain (s := k.holding (.fields e.fields)) (h := .live ⟨0⟩) e ha rfl
  exact congrArg Store.sinks (leaves_ok hrun)

/-- What other appenders are handed leaves the standard output there. -/
theorem accepts_take_others (ha : k.Accepts r) {d : Delivery} (hd : r ≠ d.appender) :
    (k.take d).Accepts r := by
  refine ha.of_appender (k.take_others hd) fun ho => ?_
  have hI : Store.Receptive (fun _ => True) d.appender d.fields.handle (·.stdout.isSome) :=
    { edited := fun _ _ _ hs => hs
      received := fun _ _ hs => hs
      printed := fun _ _ => rfl
      edits := fun _ => .inr fun _ _ => trivial }
  exact (receive_keeps hI d.context d.level d.msg).leaves ho

/-- Of a run of deliveries an appender makes what it makes of its own ones, if these are plain. -/
theorem appender_takes {ds : List Delivery} {es : List (PlainEntry)} (ha : k.Accepts r)
    (hes : ds.filter (·.appender = r) = es.map (·.delivery r)) :
    (ds.foldl take k).appender r = es.foldl Appender.hand (k.appender r) := by
  induction ds generalizing k es with
  | nil =>
    obtain rfl := List.map_eq_nil_iff.1 hes.symm
    rfl
  | cons d ds ih =>
    by_cases hd : d.appender = r
    · rw [List.filter_cons_of_pos (by simpa using hd)] at hes
      cases es with
      | nil => cases hes
      | cons e es =>
        rw [List.map_cons, List.cons_eq_cons] at hes
        obtain ⟨rfl, hes⟩ := hes
        rw [List.foldl_cons, List.foldl_cons, take_plain ha, ih (accepts_hand ha e) hes, appender_hand ha]
    · rw [List.filter_cons_of_neg (by simpa using hd)] at hes
      rw [List.foldl_cons, ih (accepts_take_others ha (Ne.symm hd)) hes, k.take_others (Ne.symm hd)]

end Sinks

end ContextLog
