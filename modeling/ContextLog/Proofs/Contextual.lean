import ContextLog.Proofs.Counting
import ContextLog.Proofs.Drafts
/-!
# Entries through a contextual source

A contextual source is handed a copy of an entry's own fields, and may take fields away from it and add some before it
gives fields of its own. What reaches the appender is the copy as the producer leaves it with what it gives set on it
(`Product.Resolves`); where it gives nothing it is the copy itself, even if nothing is left in it. The mapping of the
caller stays what it was (`contextual_resolution`).
-/

namespace ContextLog

variable {s : Store} {call : Call} {c : ContextRef} {l : Level} {a : AppenderRef} {p : ProducerRef}
  {nested : Call → Session Unit} {e : Fields} {program : List Action} {product : Product} {depth : Nat}

/-! ## What becomes of the fields -/

namespace Product

/-- Has no action that was run touched a key, and is it none of the output? -/
def spares (product : Product) (program : List Action) (k : Value) : Bool :=
  (Action.executed program).all (fun action => !(action.deletes k || action.puts k)) && (product.output.get? k).isNone

/-- The fields `r` of an entry whose own fields were `e`, after its producer has run. -/
structure Resolves (product : Product) (e : Fields) (program : List Action) (r : Fields) : Prop where
  /-- They are the edited copy of the entry's own fields with the output over it. -/
  overlay : r = product.fields.overlay product.output
  edited : product.fields = e.edited (Action.executed program)
  /-- A key that was deleted, and neither put back nor given, is not there. -/
  deleted : ∀ k earlier action later, Action.executed program = earlier ++ action :: later → action.deletes k →
    (∀ b ∈ later, b.puts k = false) → product.output.get? k = none → r.get? k = none
  /-- A key that was put and not deleted again is there, with the value that was put last unless one is given. -/
  put : ∀ k earlier key value later, Action.executed program = earlier ++ .put key value :: later → key.SameKey k →
    (∀ b ∈ later, b.deletes k = false) → (r.get? k).isSome ∧
      ((∀ b ∈ later, b.puts k = false) → product.output.get? k = none → r.get? k = some value)
  /-- A key that is given has the value that is given. -/
  given : ∀ k v, product.output.get? k = some v → r.get? k = some v
  /-- All other entries are those of the caller, in their order. -/
  spared : r.entries.filter (fun entry => product.spares program entry.1) =
    e.entries.filter fun entry => product.spares program entry.1

/-- What a program leaves resolves the fields that it was run on. -/
theorem resolves {sight : Sight} (h : (Draft.mk e .empty).run sight program = .ok product) :
    product.Resolves e program (product.fields.overlay product.output) where
  overlay := rfl
  edited := Draft.run_fields h
  deleted := by
    intro k earlier action later hrun hdeletes hlater hgiven
    have hfields : product.fields.get? k = none := by
      rw [Draft.run_fields h, hrun]
      exact Fields.get?_edited_of_deleted hdeletes hlater
    rw [Fields.get?_overlay, hgiven, hfields]
    rfl
  put := by
    intro k earlier key value later hrun hk hlater
    constructor
    · have hfields : (product.fields.get? k).isSome := by
        rw [Draft.run_fields h, hrun]
        exact Fields.isSome_get?_edited_of_put hk hlater
      rw [Fields.get?_overlay]
      cases product.output.get? k with
      | none => exact hfields
      | some v => rfl
    · intro hputs hgiven
      have hfields : product.fields.get? k = some value := by
        rw [Draft.run_fields h, hrun]
        exact Fields.get?_edited_of_put hk fun b hb => ⟨hlater b hb, hputs b hb⟩
      rw [Fields.get?_overlay, hgiven, hfields]
      rfl
  given := by
    intro k v hgiven
    rw [Fields.get?_overlay, hgiven]
    rfl
  spared := by
    have htouched : ∀ action ∈ Action.executed program, ∀ k, (action.deletes k || action.puts k) →
        product.spares program k = false := by
      intro action haction k htouches
      refine Bool.eq_false_iff.2 fun hspares => ?_
      have hall := List.all_eq_true.1 (Bool.and_eq_true_iff.1 hspares).1 action haction
      simp [htouches] at hall
    have hgiven : ∀ k, (product.output.get? k).isSome → product.spares program k = false := by
      intro k hsome
      refine Bool.eq_false_iff.2 fun hspares => ?_
      have hnone := (Bool.and_eq_true_iff.1 hspares).2
      rw [Option.isNone_iff_eq_none] at hnone
      rw [hnone] at hsome
      cases hsome
    rw [Fields.filter_overlay hgiven, Draft.run_fields h]
    exact Fields.filter_edited htouched e

end Product

/-! ## The fields of an entry -/

namespace Dispatch

/-- A source that works on the fields of an entry is handed a copy of them. -/
theorem explicitFields_copy {source : Source} (hs : source.isContextual) {own : Handle}
    (hr : (s.supplied own).IsRegular) :
    explicitFields source own s =
      .ok (.live ⟨s.mappings.length⟩) { s with mappings := s.mappings ++ [s.ownFields own] } := by
  have hcopy : (s.supplied own).copyIfPresent = .ok (s.ownFields own) := by
    unfold Store.ownFields Supplied.copyIfPresent
    cases hown : s.supplied own with
    | nothing => rfl
    | fields f =>
      by_cases hf : f.isEmpty
      · rw [empty_of_isEmpty hf]
        rfl
      · simp [Supplied.isPresent, hf, Supplied.copy]
    | other v =>
      rw [hown] at hr
      exact hr.elim
  unfold explicitFields Session.newCopy
  rw [if_pos hs]
  simp only [bind_assoc]
  rw [Session.run_bind_ok Session.run_get, hcopy]
  rfl

end Dispatch

/-- The store once a producer has been called on a copy of some fields, which stands behind all that was there. -/
def Store.handed (s : Store) (p : ProducerRef) (f : Fields) : Store :=
  { s.counted p with mappings := s.mappings ++ [f] }

theorem Store.holds_handed (s : Store) (p : ProducerRef) (f : Fields) :
    Produce.Holds (s.handed p f) ⟨s.mappings.length⟩ ⟨f, .empty⟩ where
  known := by simp [Store.handed]
  fields := by simp [Store.handed, Store.mapping]

theorem Store.holding_handed (f g : Fields) : (s.handed p f).holding ⟨s.mappings.length⟩ g = s.handed p g := by
  simp [Store.holding, Store.handed]

/-- What a producer that takes the four arguments gives, and what it leaves of the copy. -/
theorem resolveSource_contextual (nested : Call → Session Unit) {scope : Scope}
    (hf : scope.fields = .live ⟨s.mappings.length⟩) (ht : s.takes p 4)
    (hl : ∀ action ∈ (s.producer p).program, action.isLocal) (e : Fields) :
    match (Draft.mk e .empty).run ((s.counted p).sight p scope) (s.producer p).program with
    | .ok product => ∃ given s',
        resolveSource nested (.contextual (.producer p)) scope { s with mappings := s.mappings ++ [e] } = .ok given s' ∧
          (s.handed p product.fields).Allots s' ∧ s'.supplied given = product.supplied
    | .error failure => ∃ f,
        resolveSource nested (.contextual (.producer p)) scope { s with mappings := s.mappings ++ [e] } =
          .error failure (s.handed p f) := by
  have hcall : resolveSource nested (.contextual (.producer p)) scope { s with mappings := s.mappings ++ [e] } =
      Produce.run nested p scope .empty (s.producer p).program (s.handed p e) :=
    Produce.invoke_of_takes (s := { s with mappings := s.mappings ++ [e] }) ht scope
  have hsight : (s.handed p e).sight p scope = (s.counted p).sight p scope := rfl
  have hrun := Produce.run_drafts nested p (s.holds_handed p e) hf hl
  simp only [hsight, Store.holding_handed] at hrun
  rw [hcall]
  exact hrun

/-- What is given and what is left come to one mapping: where nothing is given to what is left, and else to a new one
if there is anything left. -/
theorem mergeHandles_product {explicit given : Handle} (he : s.supplied explicit = .fields product.fields)
    (hg : s.supplied given = product.supplied) :
    ∃ side h s', mergeHandles explicit given s = .ok (side, h) s' ∧ s.Allots s' ∧
      s'.supplied h = .fields (product.fields.overlay product.output) ∧ (product.output = .empty → h = explicit) := by
  obtain ⟨fields, given?⟩ := product
  by_cases hempty : (Product.mk fields given?).output = .empty
  · have habsent : (s.supplied given).isPresent = false := by
      rw [hg]
      cases given? with
      | none => rfl
      | some f =>
        obtain rfl : f = .empty := hempty
        rfl
    refine ⟨.explicit, explicit, s, ?_, .refl s, ?_, fun _ => rfl⟩
    · unfold mergeHandles Supplied.merge
      rw [Session.run_bind_ok Session.run_get, habsent]
      rfl
    · rw [he, hempty, Fields.overlay_empty]
  · have hmerge : (mergeHandles explicit given).MergesTo s (fields.overlay (s.ownFields given)) := by
      refine mergeHandles_mergesTo he ?_
      rw [hg]
      cases given? <;> trivial
    have hown : s.ownFields given = (Product.mk fields given?).output := by
      unfold Store.ownFields
      rw [hg]
      cases given? <;> rfl
    obtain ⟨side, h, s', hrun, hh, hs', -⟩ := hmerge
    exact ⟨side, h, s', hrun, hs', hown ▸ hh, fun h => absurd h hempty⟩

namespace Dispatch

/-- What a producer sees of an entry besides its fields. -/
def sightOf (s : Store) (p : ProducerRef) (c : ContextRef) (l : Level) (call : Call) : Sight :=
  (s.counted p).sight p { context := some c, level := .level l, args := call.args }

/-- The fields of an entry after the producer of its context has run: there are a copy of the entry's own fields as the
producer leaves it, behind all that was there before, and perhaps what it gives and what is made of the two. -/
theorem entryFields_contextual (nested : Call → Session Unit) (l : Level) (hr : (s.supplied call.fields).IsRegular)
    (hsource : s.sourceOf c = .contextual (.producer p)) (ht : s.takes p 4)
    (hl : ∀ action ∈ (s.producer p).program, action.isLocal) :
    match (Draft.mk (s.ownFields call.fields) .empty).run (sightOf s p c l call) (s.producer p).program with
    | .ok product => ∃ h s', entryFields nested c l call s = .ok h s' ∧ (s.handed p product.fields).Allots s' ∧
        s'.supplied h = .fields (product.fields.overlay product.output) ∧
        (product.output = .empty → h = .live ⟨s.mappings.length⟩)
    | .error failure => ∃ f, entryFields nested c l call s = .error failure (s.handed p f) := by
  let scope : Scope :=
    { context := some c, level := .level l, fields := .live ⟨s.mappings.length⟩, args := call.args }
  have hfields : entryFields nested c l call s = resolveFields nested (.contextual (.producer p)) scope
      { s with mappings := s.mappings ++ [s.ownFields call.fields] } := by
    unfold entryFields
    rw [Session.run_bind_ok Session.run_get, hsource, Session.run_bind_ok (explicitFields_copy rfl hr)]
  have hsight : (s.counted p).sight p scope = sightOf s p c l call := rfl
  have hgive := resolveSource_contextual nested (rfl : scope.fields = _) ht hl (s.ownFields call.fields)
  rw [hsight] at hgive
  simp only [hfields, resolveFields, Source.isAbsent]
  cases hdraft : (Draft.mk (s.ownFields call.fields) .empty).run (sightOf s p c l call) (s.producer p).program with
  | error failure =>
    rw [hdraft] at hgive
    obtain ⟨f, hgive⟩ := hgive
    exact ⟨f, Session.run_bind_error hgive⟩
  | ok product =>
    rw [hdraft] at hgive
    obtain ⟨given, s₁, hgive, hs₁, hgiven⟩ := hgive
    have hleft : s₁.supplied (.live ⟨s.mappings.length⟩) = .fields product.fields := by
      have hknown : (s.handed p product.fields).Knows (.live ⟨s.mappings.length⟩) := (s.holds_handed p _).known
      rw [hs₁.supplied hknown]
      exact congrArg Supplied.fields (s.holds_handed p product.fields).fields
    obtain ⟨side, h, s₂, hmerge, hs₂, hh, hsame⟩ := mergeHandles_product hleft hgiven
    refine ⟨h, s₂, ?_, hs₁.trans hs₂, hh, hsame⟩
    exact (Session.run_bind_ok hgive).trans (Session.run_bind_ok hmerge)

end Dispatch

/-! ## The law -/

/-- An entry has been handed to its appender, as the handle `h` and with the fields `r`: of all appenders this one has
been called once, nothing but what follows its level comes after it, and what the store held before is untouched. -/
structure Call.Reaches (depth : Nat) (s : Store) (call : Call) (c : ContextRef) (l : Level) (a : AppenderRef)
    (msg : Text) (h : Handle) (r : Fields) : Prop where
  delivered : ((dispatch (depth + 1) call).leaves s).deliveries =
    s.deliveries ++ [⟨a, some c, .level l, .fields r, .text msg⟩]
  handed : ∃ s₁, s₁.supplied h = .fields r ∧ (∀ own, s.Knows own → s₁.supplied own = s.supplied own) ∧
    dispatch (depth + 1) call s = (do receive a (some c) (.level l) h (.text msg); Dispatch.followUp l msg) s₁

/-- What a store held before a producer was called is there afterwards. -/
theorem Store.Allots.supplied_handed {s' : Store} {f : Fields} (h : (s.handed p f).Allots s') {own : Handle}
    (hk : s.Knows own) : s'.supplied own = s.supplied own := by
  have hk' : (s.handed p f).Knows own := by
    cases own with
    | live m =>
      have hlt : m.index < s.mappings.length := hk
      show m.index < (s.mappings ++ [f]).length
      simp
      omega
    | _ => trivial
  rw [h.supplied hk']
  cases own with
  | live m => exact congrArg Supplied.fields (Store.mapping_allotted_of_lt hk f)
  | _ => rfl

/-- An entry through a contextual source whose producer works on the fields alone: if the producer fails, the entry
fails in the same way and is not delivered; and if it comes to its end, the appender is handed the copy of the entry's
fields as the producer left it, with the output over it, and this is the copy itself if there is no output. -/
theorem contextual_resolution {msg : Text} (ha : s.Admits call.context call.level c l a)
    (hr : (s.supplied call.fields).IsRegular) (hsource : s.sourceOf c = .contextual (.producer p)) (ht : s.takes p 4)
    (hl : ∀ action ∈ (s.producer p).program, action.isLocal)
    (hm : (formatMessage call.args call.templated).2 = .ok msg) (depth : Nat) :
    match (Draft.mk (s.ownFields call.fields) .empty).run (Dispatch.sightOf s p c l call) (s.producer p).program with
    | .error failure => (dispatch (depth + 1) call).outcome s = .error failure ∧
        ((dispatch (depth + 1) call).leaves s).deliveries = s.deliveries
    | .ok product => ∃ h r, product.Resolves (s.ownFields call.fields) (s.producer p).program r ∧
        call.Reaches depth s c l a msg h r ∧ (product.output = .empty → h = .live ⟨s.mappings.length⟩) := by
  have hfields := Dispatch.entryFields_contextual (dispatch depth) l hr hsource ht hl
  have hdispatch : dispatch (depth + 1) call s = Dispatch.deliver (dispatch depth) c l a call s := by
    have hrun := dispatchWith_run (dispatch depth) call s
    rw [ha.admission] at hrun
    exact hrun
  cases hdraft : (Draft.mk (s.ownFields call.fields) .empty).run (Dispatch.sightOf s p c l call)
      (s.producer p).program with
  | error failure =>
    rw [hdraft] at hfields
    obtain ⟨f, hfields⟩ := hfields
    have hfails := hdispatch.trans (Dispatch.deliver_of_fields_error hfields)
    refine ⟨Session.outcome_error hfails, ?_⟩
    rw [Session.leaves_error hfails]
    rfl
  | ok product =>
    rw [hdraft] at hfields
    obtain ⟨h, s₁, hfields, hs₁, hh, hsame⟩ := hfields
    obtain ⟨s₂, ⟨rs, hs₂⟩, hdeliver⟩ :=
      Dispatch.deliver_of_message (a := a) hfields (Dispatch.entryFields_isMapping hr hfields) hm
    have hheld : ∀ own, s₂.supplied own = s₁.supplied own := by
      intro own
      rw [hs₂]
      cases own <;> rfl
    refine ⟨h, _, Product.resolves hdraft, ⟨?_, s₂, ?_, ?_, hdispatch.trans hdeliver⟩, hsame⟩
    · have hleaves : (dispatch (depth + 1) call).leaves s = (receive a (some c) (.level l) h (.text msg)).leaves s₂ :=
        (Session.leaves_congr (hdispatch.trans hdeliver)).trans (Dispatch.receive_followUp_leaves _ _ _ _)
      have hsilent := receive_silent a (some c) (.level l) h (.text msg) s₂.deliveries
      obtain ⟨ms, rfl⟩ := hs₁
      rw [hleaves, hsilent.leaves rfl, hs₂, hh]
      rfl
    · rw [hheld, hh]
    · intro own hk
      rw [hheld, hs₁.supplied_handed hk]

/-- A store with a context whose source takes a field away, changes another one and gives a third one a value, and with
an appender that keeps entries. -/
def consumingSource : Store where
  mappings := [.ofList [(.str "user", .str "ada"), (.str "size", .int 3), (.str "path", .str "/tmp")]]
  contexts := [{}, { source := .contextual (.producer ⟨0⟩) }]
  producers := [{
    signature := none
    program := [.pop (.str "user") (.str "who"), .put (.str "size") (.int 4), .output (.str "path") .none]
    typeName := "function"
    representation := "<function>" }]
  appenders := [.recording [] []]
  defaults := { appender := some ⟨0⟩ }

/-- An entry through that context, with the fields of a mapping. -/
def consumedCall : Call := { context := some ⟨1⟩, level := .level .error, fields := .live ⟨0⟩, args := [.str "m"] }

theorem contextual_resolution_consumingSource :
    ∃ h r, (Product.mk (.ofList [(.str "size", .int 4), (.str "path", .str "/tmp")])
        (some (.ofList [(.str "who", .str "ada"), (.str "path", .none)]))).Resolves
          (consumingSource.mapping ⟨0⟩) (consumingSource.producer ⟨0⟩).program r ∧
      consumedCall.Reaches 0 consumingSource ⟨1⟩ .error ⟨0⟩ (.ofString "m") h r := by
  have ha : consumingSource.Admits consumedCall.context consumedCall.level ⟨1⟩ .error ⟨0⟩ :=
    ⟨rfl, .inl rfl, by decide, by decide, by decide⟩
  have hm : (formatMessage consumedCall.args consumedCall.templated).2 = .ok (.ofString "m") := rfl
  have hsource : consumingSource.sourceOf ⟨1⟩ = .contextual (.producer ⟨0⟩) := rfl
  obtain ⟨h, r, hresolves, hreaches, -⟩ := contextual_resolution ha trivial hsource rfl (by decide) hm 0
  exact ⟨h, r, hresolves, hreaches⟩

end ContextLog
