import ContextLog.Emit
import ContextLog.Proofs.Frame
import ContextLog.Proofs.Writes
/-!
# Using a builder again

A builder hands its very mapping to every entry that it sends, so what one entry did to it would be
seen by the next. `Entry.enters_dispatch` says that nothing is: however many entries were sent, through
whatever contexts and however they ended, the next one starts from what was collected, one write after
the other.
-/

namespace ContextLog

/-- A use of a builder: it collects, or it sends an entry. -/
inductive Use
  | field (key value : Value)
  | fields (source : Handle)
  | error (error : Value)
  | emit (m : Method) (context : Option ContextRef) (args : List Value)
  | log (context : Option ContextRef) (level : Value) (args : List Value)

/-- Fields are added from a mapping, which is in the store. -/
def Use.Fits (s : Store) : Use → Prop
  | .fields source => source.IsMapping ∧ s.Knows source
  | _ => True

namespace Entry

/-- Makes use of a builder. -/
def perform (e : Entry) : Use → Session Unit
  | .field key value => e.withField key value
  | .fields source => e.withFields source
  | .error error => e.withError error
  | .emit m context args => e.emit m context args
  | .log context level args => e.log context level args

/-- The store after a builder has been used, whichever way each use ended. -/
def after (e : Entry) (s : Store) (uses : List Use) : Store :=
  uses.foldl (fun s use => (e.perform use).leaves s) s

/-- The entries that a mapping adds to a builder. Its own mapping adds nothing new. -/
def additions (e : Entry) (s : Store) : Handle → List (Value × Value)
  | .live m => if m = e.fields then [] else (s.mapping m).entries
  | h => match s.supplied h with
    | .fields f => f.entries
    | _ => []

/-- The entries that a use writes, in order. A use that is refused writes nothing, and neither does one
that sends an entry. -/
def writes (e : Entry) (s : Store) : Use → List (Value × Value)
  | .field key value => if key.mutableType?.isNone then [(key, value)] else []
  | .fields source => e.additions s source
  | .error error => match error.shown with
    | .ok text => [(errorKey, .str text)]
    | .error _ => []
  | .emit _ _ _ | .log _ _ _ => []

/-- The call that a use sends, if it sends one. -/
def sent? (e : Entry) : Use → Option Call
  | .emit m context args => some { context, level := .level m.level, fields := .live e.fields, args }
  | .log context level args => match Level.ofValue level with
    | .ok l => some { context, level := .level l, fields := .live e.fields, args }
    | .error _ => none
  | _ => none

theorem perform_of_sent? {e : Entry} {use : Use} {call : Call} (h : e.sent? use = some call) :
    e.perform use = send call ∧ call.fields = .live e.fields := by
  cases use with
  | emit m context args => cases h; exact ⟨rfl, rfl⟩
  | log context level args =>
    cases hl : Level.ofValue level with
    | error f => simp only [sent?, hl] at h; cases h
    | ok l =>
      simp only [sent?, hl] at h
      cases h
      refine ⟨?_, rfl⟩
      show Entry.log e context level args = _
      unfold Entry.log
      rw [hl]
      rfl
  | _ => cases h

/-! ## One use -/

/-- What the uses of a builder leave as it was: every mapping but the builder's own one. -/
structure Spares (e : Entry) (s s' : Store) : Prop where
  others : ∀ m : MappingRef, m.index < s.mappings.length → m ≠ e.fields → s'.mapping m = s.mapping m
  room : s.mappings.length ≤ s'.mappings.length
  passive : s'.IsPassive

variable {e : Entry} {s s' s'' : Store}

theorem Spares.refl (hs : s.IsPassive) : e.Spares s s := ⟨fun _ _ _ => rfl, Nat.le_refl _, hs⟩

theorem Spares.extends (h : e.Spares s s') (hx : s'.Extends s'') : e.Spares s s'' where
  others m hm hne := (hx.mappings m (Nat.lt_of_lt_of_le hm h.room)).trans (h.others m hm hne)
  room := Nat.le_trans h.room hx.room
  passive := hx.passive h.passive

/-- The builder's own mapping is replaced. -/
theorem Spares.edited (h : e.Spares s s') (f : Fields) :
    e.Spares s { s' with mappings := s'.mappings.set e.fields.index f } where
  others m hm hne := (Store.mapping_edited_of_ne hne.symm f).trans (h.others m hm hne)
  room := by simpa using h.room
  passive := h.passive

/-- What a mapping adds is settled by what it held in the beginning. -/
theorem overlay_additions (h : e.Spares s s') {source : Handle} (hk : s.Knows source) {f : Fields}
    (hf : s'.supplied source = .fields f) :
    (s'.mapping e.fields).overlay f = (s'.mapping e.fields).setAll (e.additions s source) := by
  cases source with
  | nothing => cases hf
  | live m =>
    obtain rfl : s'.mapping m = f := Supplied.fields.inj hf
    have hadd : e.additions s (.live m) = if m = e.fields then [] else (s.mapping m).entries := rfl
    by_cases hself : m = e.fields
    · -- It has changed since the beginning, but setting it on itself adds nothing.
      rw [hadd, if_pos hself, hself]
      exact Fields.overlay_self _
    · rw [hadd, if_neg hself, h.others m hk hself]
      rfl
  | vacant => cases hf; rfl
  | other v =>
    have hv : Supplied.ofValue v = .fields f := hf
    have hadd : e.additions s (.other v) = match Supplied.ofValue v with
      | .fields f => f.entries
      | _ => [] := rfl
    rw [hadd, hv]
    rfl

theorem withField_collects (h : e.Spares s s') (he : e.fields.index < s.mappings.length)
    (key value : Value) :
    e.Spares s ((e.withField key value).leaves s') ∧
      ((e.withField key value).leaves s').mapping e.fields = (s'.mapping e.fields).setAll
        (if key.mutableType?.isNone then [(key, value)] else []) := by
  unfold Session.leaves withField Session.checkKey
  cases key.mutableType? with
  | some type => exact ⟨h, rfl⟩
  | none => exact ⟨h.edited _, Store.mapping_edited (Nat.lt_of_lt_of_le he h.room) _⟩

theorem withFields_collects (h : e.Spares s s') (he : e.fields.index < s.mappings.length)
    {source : Handle} (hm : source.IsMapping) (hk : s.Knows source) :
    e.Spares s ((e.withFields source).leaves s') ∧
      ((e.withFields source).leaves s').mapping e.fields =
        (s'.mapping e.fields).setAll (e.additions s source) := by
  obtain ⟨f, hf⟩ := hm s'
  have hrun : e.withFields source s' = .ok () { s' with
      mappings := s'.mappings.set e.fields.index ((s'.mapping e.fields).overlay f) } := by
    unfold withFields
    rw [Session.run_bind_ok Session.run_get, hf]
    rfl
  rw [Session.leaves_ok hrun, ← overlay_additions h hk hf]
  exact ⟨h.edited _, Store.mapping_edited (Nat.lt_of_lt_of_le he h.room) _⟩

theorem withError_collects (h : e.Spares s s') (he : e.fields.index < s.mappings.length) (error : Value) :
    e.Spares s ((e.withError error).leaves s') ∧
      ((e.withError error).leaves s').mapping e.fields =
        (s'.mapping e.fields).setAll (e.writes s (.error error)) := by
  have hwrites : e.writes s (.error error) = match error.shown with
    | .ok text => [(errorKey, .str text)]
    | .error _ => [] := rfl
  rw [hwrites]
  unfold withError
  cases error.shown with
  | error f => exact ⟨h, rfl⟩
  | ok text => exact withField_collects h he errorKey (.str text)

/-- Sending an entry leaves the builder's mapping as it was, with all the others. -/
theorem send_collects (h : e.Spares s s') (he : e.fields.index < s.mappings.length) (call : Call) :
    e.Spares s ((send call).leaves s') ∧
      ((send call).leaves s').mapping e.fields = (s'.mapping e.fields).setAll [] :=
  have hext := dispatch_extends h.passive nestingLimit call
  ⟨h.extends hext, hext.mappings _ (Nat.lt_of_lt_of_le he h.room)⟩

/-- One use adds its writes to what has been collected. -/
theorem perform_collects (h : e.Spares s s') (he : e.fields.index < s.mappings.length) {use : Use}
    (hu : use.Fits s) :
    e.Spares s ((e.perform use).leaves s') ∧
      ((e.perform use).leaves s').mapping e.fields = (s'.mapping e.fields).setAll (e.writes s use) := by
  cases use with
  | field key value => exact withField_collects h he key value
  | fields source => exact withFields_collects h he hu.1 hu.2
  | error error => exact withError_collects h he error
  | emit m context args => exact send_collects h he _
  | log context level args =>
    show e.Spares s ((e.log context level args).leaves s') ∧
      ((e.log context level args).leaves s').mapping e.fields = _
    unfold log
    cases Level.ofValue level with
    | error f => exact ⟨h, rfl⟩
    | ok l => exact send_collects h he _

/-! ## All uses -/

theorem after_collects (he : e.fields.index < s.mappings.length) {uses : List Use}
    (hu : ∀ use ∈ uses, use.Fits s) (h : e.Spares s s') :
    (e.after s' uses).mapping e.fields = (s'.mapping e.fields).setAll (uses.flatMap (e.writes s)) := by
  induction uses generalizing s' with
  | nil => rfl
  | cons use uses ih =>
    obtain ⟨hspares, hmap⟩ := perform_collects h he (hu use List.mem_cons_self)
    rw [List.flatMap_cons, Fields.setAll_append, ← hmap]
    exact ih (fun use hmem => hu use (List.mem_cons_of_mem _ hmem)) hspares

/-- The fields that enter a dispatch from a builder are those that it had in the beginning, with the
writes of its uses one after the other: under each key what was written last, the keys in the order in
which they were first written. Entries sent in between write nothing, whatever they went through and
however they ended. -/
theorem enters_dispatch (hs : s.IsPassive) (he : e.fields.index < s.mappings.length)
    {uses : List Use} (hu : ∀ use ∈ uses, use.Fits s) {use : Use} {call : Call}
    (hc : e.sent? use = some call) :
    e.perform use = send call ∧
    ∃ f, (e.after s uses).supplied call.fields = .fields f ∧
      f = (s.mapping e.fields).setAll (uses.flatMap (e.writes s)) ∧
      (∀ key, f.get? key =
        (findEntry key (uses.flatMap (e.writes s)).reverse).or ((s.mapping e.fields).get? key)) ∧
      entryForms f.entries =
        (entryForms (s.mapping e.fields).entries ++ entryForms (uses.flatMap (e.writes s))).eraseDups := by
  obtain ⟨hsend, hfields⟩ := perform_of_sent? hc
  refine ⟨hsend, _, ?_, rfl, Fields.get?_setAll _ _, Fields.forms_setAll _ _⟩
  rw [hfields]
  exact congrArg Supplied.fields (after_collects he hu (.refl hs))

/-- A store with an empty builder, a mapping, and a context at which everything is let through and whose
source empties the fields that it is given and fails. -/
def clearingSource : Store where
  mappings := [.empty, .ofList [(.str "b", .int 2), (.str "a", .int 3)]]
  contexts := [{}, { level := .level .debug, source := .contextual (.producer ⟨0⟩) }]
  producers := [{
    signature := none
    program := [.clear, .put (.str "c") (.int 4), .raise .none]
    typeName := "function"
    representation := "<function>" }]
  appenders := [.recording [] []]
  defaults := { appender := some ⟨0⟩ }

/-- One key is written before an entry that fails and one that ends the process, and the same key and
another one after them. -/
def interleaved : List Use :=
  [.field (.str "a") (.int 1), .emit .error (some ⟨1⟩) [], .emit .fatal none [], .fields (.live ⟨1⟩)]

/-- The last write counts, and the first one gives the place. -/
theorem enters_dispatch_clearingSource :
    ∃ f, (after ⟨⟨0⟩⟩ clearingSource interleaved).supplied (.live ⟨0⟩) = .fields f ∧
      f.get? (.str "a") = some (.int 3) ∧
      f.entries.map (·.1.keyForm) = [(Value.str "a").keyForm, (Value.str "b").keyForm] := by
  have hs : clearingSource.IsPassive := by rintro ⟨_ | n⟩ <;> rfl
  have he : (Entry.mk ⟨0⟩).fields.index < clearingSource.mappings.length := by decide
  have hu : ∀ use ∈ interleaved, use.Fits clearingSource := by
    simp only [interleaved, List.forall_mem_cons]
    exact ⟨trivial, trivial, trivial, ⟨Handle.isMapping_live _, Nat.lt_succ_self 1⟩, nofun⟩
  obtain ⟨-, f, hf, -, hget, hforms⟩ :=
    enters_dispatch hs he hu (rfl : sent? ⟨⟨0⟩⟩ (.emit .info none []) = some _)
  refine ⟨f, hf, (hget (.str "a")).trans rfl, hforms.trans ?_⟩
  decide

end Entry

end ContextLog
