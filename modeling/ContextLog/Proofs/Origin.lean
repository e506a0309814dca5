import ContextLog.Proofs.Admission
import ContextLog.Proofs.Producer
/-!
# Where the fields of a delivery come from

Every key that an appender is handed was in the fields of that entry or comes from the source of that
entry's context (`Dispatch.entryFields_forms`). Nothing that was put into the fields of one entry can
be found in another one: `dispatch_alters_nothing_given` says this for runs of any length, together
with what a dispatch leaves as it was.
-/

namespace ContextLog

/-- The keys of what is supplied, when it is copied. -/
def Supplied.forms (x : Supplied) : List (List Value.KeyAtom) :=
  match x.copyIfPresent with
  | .ok f => entryForms f.entries
  | .error _ => []

theorem Supplied.copyIfPresent_fields (f : Fields) : (Supplied.fields f).copyIfPresent = .ok f := by
  show (if !f.isEmpty then Except.ok f else .ok .empty) = _
  cases hf : f.isEmpty with
  | true =>
    have hempty : f = .empty := Fields.ext (List.isEmpty_iff.1 hf)
    exact congrArg Except.ok hempty.symm
  | false => rfl

@[simp] theorem Supplied.forms_fields (f : Fields) : (Supplied.fields f).forms = entryForms f.entries := by
  rw [forms, copyIfPresent_fields]

/-- Fields given as a value have the same keys however they are taken. -/
theorem Supplied.forms_ofValue (v : Value) : (Supplied.ofValue v).forms = (Supplied.other v).forms := by
  cases v with
  | none => rfl
  | dict entries =>
    show (Supplied.fields (Fields.ofList entries)).forms = _
    rw [forms_fields]
    cases entries <;> rfl
  | _ => rfl

namespace Store

/-- The keys that a source may contribute to an entry. -/
def contributed (s : Store) : Source → List (List Value.KeyAtom)
  | .static m => entryForms (s.mapping m).entries
  | .lazy (.producer p) | .contextual (.producer p) =>
    (Action.allWrites (s.producer p).program).map Value.keyForm
  | _ => []

/-- The fixed fields of every context are in the store. -/
def IsClosed (s : Store) : Prop := ∀ c m, s.sourceOf c = .static m → m.index < s.mappings.length

variable {s s' : Store}

theorem Extends.sourceOf (h : s.Extends s') (c : ContextRef) : s'.sourceOf c = s.sourceOf c := by
  unfold Store.sourceOf Store.context
  rw [h.contexts]

theorem Extends.isClosed (h : s.Extends s') (hc : s.IsClosed) : s'.IsClosed := fun c m hm =>
  Nat.lt_of_lt_of_le (hc c m (h.sourceOf c ▸ hm)) h.room

/-- What the source of a context may contribute stays the same. -/
theorem Extends.contributed (h : s.Extends s') (hc : s.IsClosed) (c : ContextRef) :
    s'.contributed (s.sourceOf c) = s.contributed (s.sourceOf c) := by
  cases hsrc : s.sourceOf c with
  | static m => exact congrArg (entryForms ·.entries) (h.mappings m (hc c m hsrc))
  | lazy of =>
    cases of with
    | producer p => exact congrArg (fun program => (Action.allWrites program).map _) (h.programs p)
    | _ => rfl
  | contextual of =>
    cases of with
    | producer p => exact congrArg (fun program => (Action.allWrites program).map _) (h.programs p)
    | _ => rfl
  | _ => rfl

end Store

variable {nested : Call → Session Unit} {s s' : Store} {K : List (List Value.KeyAtom)}

theorem Store.Confines.forms {handle : Handle} (h : s.Confines K handle) :
    (s.supplied handle).forms ⊆ K := by
  cases handle with
  | live m => exact (Supplied.forms_fields _).symm ▸ h.2
  | nothing => exact List.nil_subset _
  | _ => exact h.elim

/-! ## The fields of one entry -/

theorem resolveSource_forms (hn : NestedExtends nested) (hs : s.IsPassive) {source : Source}
    (hstatic : ∀ m, source = .static m → m.index < s.mappings.length)
    (hsource : s.contributed source ⊆ K) {scope : Scope}
    (hf : source.isContextual → s.Confines K scope.fields) {r : Handle}
    (h : resolveSource nested source scope s = .ok r s') :
    s'.Confines K r ∧ (source.isContextual → s'.Confines K scope.fields) := by
  cases source with
  | static m =>
    cases h
    exact ⟨⟨hstatic m rfl, hsource⟩, nofun⟩
  | lazy of =>
    refine ⟨(Produce.invoke_ok hn ?_ hs (show s.Confines K ({} : Scope).fields from trivial) h).1, nofun⟩
    rintro p rfl
    exact hsource
  | contextual of =>
    obtain ⟨hr, hscope⟩ := Produce.invoke_ok hn (by rintro p rfl; exact hsource) hs (hf rfl) h
    exact ⟨hr, fun _ => hscope⟩
  | _ => cases h

theorem mergeHandles_forms {explicit produced : Handle} (he : (s.supplied explicit).forms ⊆ K)
    (hp : s.Confines K produced) {r : MergeSide × Handle}
    (h : mergeHandles explicit produced s = .ok r s') : (s'.supplied r.2).forms ⊆ K := by
  rcases mergeHandles_cases explicit produced s with
    ⟨-, hm⟩ | ⟨-, -, hm⟩ | ⟨base, merged, hpres, hc, ha, hm⟩ | ⟨f, hm⟩ <;> rw [hm] at h <;> cases h
  · exact he
  · exact hp.forms
  · have hbase : entryForms base.entries ⊆ K := by
      have : (s.supplied explicit).forms = entryForms base.entries := by
        unfold Supplied.forms Supplied.copyIfPresent
        rw [if_pos hpres, hc]
      exact this ▸ he
    show (Supplied.fields (Store.mapping _ _)).forms ⊆ K
    rw [Store.mapping_allotted, Supplied.forms_fields]
    cases produced with
    | live m =>
      obtain rfl : base.overlay (s.mapping m) = merged := (Prod.mk.inj ha).2
      intro form hform
      exact (Fields.mem_forms_setAll.1 hform).elim (hbase ·) (hp.2 ·)
    | nothing => cases ha
    | _ => exact hp.elim

namespace Dispatch

/-- All keys in the fields of an entry are keys of its own fields, or keys that the source of its
context contributes. -/
theorem entryFields_forms (hn : NestedExtends nested) (hs : s.IsPassive) (hc : s.IsClosed)
    {c : ContextRef} {level : Level} {call : Call} (hk : s.Knows call.fields) {h : Handle}
    (hx : entryFields nested c level call s = .ok h s') :
    (s'.supplied h).forms ⊆ (s.supplied call.fields).forms ++ s.contributed (s.sourceOf c) := by
  unfold entryFields at hx
  rw [Session.run_bind_ok Session.run_get] at hx
  obtain ⟨explicit, s₁, he, hx⟩ := Session.bind_ok hx
  obtain ⟨hext, hexp⟩ :=
    (explicitFields_yields (Store.Extends.stable hs).toSteady.calm (.refl s) (s.sourceOf c) call.fields).ok he
  generalize hK : (s.supplied call.fields).forms ++ s.contributed (s.sourceOf c) = K
  have hown : (s.supplied call.fields).forms ⊆ K := hK ▸ List.subset_append_left _ _
  have hsource : s₁.contributed (s.sourceOf c) ⊆ K :=
    hext.contributed hc c ▸ hK ▸ List.subset_append_right _ _
  have hstatic : ∀ m, s.sourceOf c = .static m → m.index < s₁.mappings.length := fun m hm =>
    Nat.lt_of_lt_of_le (hc c m hm) hext.room
  -- A source that edits works on a copy; what any other one works on is not edited by anyone.
  have hconf : (s.sourceOf c).isContextual → s₁.Confines K explicit := fun hctx => by
    rw [if_pos hctx] at hexp
    obtain ⟨m, rfl, -, -, hlt, hcopy⟩ := hexp
    refine ⟨hlt, ?_⟩
    unfold Supplied.forms at hown
    rwa [hcopy] at hown
  have hkept : ¬ (s.sourceOf c).isContextual → s₁.Knows explicit ∧ (s₁.supplied explicit).forms ⊆ K :=
    fun hctx => by
      rw [if_neg hctx] at hexp
      obtain ⟨rfl, rfl⟩ := hexp
      split
      · exact ⟨hk, hown⟩
      · exact ⟨trivial, List.nil_subset _⟩
  unfold resolveFields at hx
  cases ha : (s.sourceOf c).isAbsent with
  | true =>
    rw [ha] at hx
    cases hx
    by_cases hctx : (s.sourceOf c).isContextual
    · exact (hconf hctx).forms
    · exact (hkept hctx).2
  | false =>
    rw [ha] at hx
    obtain ⟨produced, s₂, hp, hx⟩ := Session.bind_ok hx
    obtain ⟨r, s₃, hr, hx⟩ := Session.bind_ok hx
    cases hx
    have hs₁ := hext.passive hs
    obtain ⟨hprod, hscope⟩ := resolveSource_forms hn hs₁ hstatic hsource hconf hp
    refine mergeHandles_forms ?_ hprod hr
    by_cases hctx : (s.sourceOf c).isContextual
    · exact (hscope hctx).forms
    · have hext₂ := ((resolveSource_yields (Store.Extends.stable hs₁).toSteady (.refl s₁)
        (fun p _ => hn.keeps hs₁ _ p) (absurd · hctx)).ok hp).1
      exact hext₂.supplied (hkept hctx).1 ▸ (hkept hctx).2

end Dispatch

/-! ## The deliveries of a run -/

/-- A delivery is what becomes of an entry through a context: at its level, with its message, and with
no keys but those of its own fields and those that the source of the context contributes. -/
structure Delivery.Answers (d : Delivery) (s : Store) (c : ContextRef) (v : Value) (own : Supplied)
    (args : List Value) (templated : Bool) : Prop where
  context : d.context = some c
  level : ∃ l, Level.ofValue v = .ok l ∧ d.level = .level l
  msg : ∃ t, (formatMessage args templated).2 = .ok t ∧ d.msg = .text t
  keys : d.fields.forms ⊆ own.forms ++ s.contributed (s.sourceOf c)

/-- What a source may contribute is settled before the run. -/
theorem Delivery.Answers.of_extends {d : Delivery} {c : ContextRef} {v : Value} {own : Supplied}
    {args : List Value} {templated : Bool} (h : d.Answers s' c v own args templated)
    (hext : s.Extends s') (hc : s.IsClosed) : d.Answers s c v own args templated where
  context := h.context
  level := h.level
  msg := h.msg
  keys := by
    have hkeys := h.keys
    rwa [hext.sourceOf, hext.contributed hc] at hkeys

namespace Store

/-- A delivery is what becomes of an entry that the program of some producer sends. -/
def Sends (s : Store) (d : Delivery) : Prop :=
  ∃ p target v own args c, Action.dispatch target v own args ∈ (s.producer p).program ∧
    d.Answers s c v own args true

/-- A delivery is what becomes of a call, through the context that it names or else through the default
one, or of an entry that a producer sends. -/
def Explains (s : Store) (fallback : Option ContextRef) (call : Call) (d : Delivery) : Prop :=
  (∃ c, call.context.or fallback = some c ∧
    d.Answers s c call.level (s.supplied call.fields) call.args call.templated) ∨ s.Sends d

/-- The second store extends the first one, with no new deliveries but those with `D`. -/
def Follows (s : Store) (D : Delivery → Prop) (s' : Store) : Prop :=
  s.Extends s' ∧ ∃ ds, s'.deliveries = s.deliveries ++ ds ∧ ∀ d ∈ ds, D d

theorem Follows.refl (s : Store) (D : Delivery → Prop) : s.Follows D s :=
  ⟨.refl s, [], (List.append_nil _).symm, nofun⟩

theorem Follows.stable {D : Delivery → Prop} (hs : s.IsPassive) :
    Stable (fun m => s.mappings.length ≤ m.index) D (s.Follows D) where
  step := by
    rintro s' s'' ⟨hext, ds, hds, hD⟩ hstep
    refine ⟨hext.step (Nat.le_refl _) hstep, ?_⟩
    cases hstep with
    | delivered d hd =>
      refine ⟨ds ++ [d], by rw [← List.append_assoc, ← hds], fun d' hd' => ?_⟩
      rcases List.mem_append.1 hd' with hd' | hd'
      · exact hD d' hd'
      · exact List.mem_singleton.1 hd' ▸ hd
    | _ => exact ⟨ds, hds, hD⟩
  fresh h := h.1.room
  edits h r := .inl (h.1.passive hs r)

theorem Holds.knows {handle : Handle} {own : Supplied} (h : s.Holds handle own) : s.Knows handle := by
  cases own with
  | fields f => obtain ⟨m, rfl, hm, -⟩ := h; exact hm
  | _ => cases h; trivial

theorem Holds.forms {handle : Handle} {own : Supplied} (h : s.Holds handle own) :
    (s.supplied handle).forms = own.forms := by
  cases own with
  | fields f => obtain ⟨m, rfl, -, rfl⟩ := h; rfl
  | nothing => cases h; rfl
  | other v => cases h; exact Supplied.forms_ofValue v

end Store

/-- Whatever a dispatch delivers is what becomes of its own call or of an entry that a producer sends. The
induction is on the depth of the calls: an entry that is sent holds fields of its own, and meanwhile
those of the entries around it stay as they are. -/
theorem dispatch_follows {b : Store} (hb : b.IsPassive) (hc : b.IsClosed) {D : Delivery → Prop}
    (hsent : ∀ d, b.Sends d → D d) (depth : Nat) {call : Call} (hs : b.Follows D s)
    (hk : s.Knows call.fields)
    (hcall : ∀ c d, call.context.or s.defaults.context = some c →
      d.Answers b c call.level (s.supplied call.fields) call.args call.templated → D d) :
    (dispatch depth call).Yields s (b.Follows D) fun _ _ => True := by
  induction depth generalizing call s with
  | zero => exact hs
  | succ depth ih =>
    refine dispatchWith_keeps hs fun c l a hadm => ?_
    obtain ⟨hctx, hl⟩ := Store.admission_admitted hadm
    have hI := Store.Follows.stable (D := D) hb
    refine Dispatch.deliver_keeps hI.toSteady ?_
    refine (Dispatch.entryFields_yields hI.toSteady hs ?_ l call).of_ok ?_
    · -- An entry that a producer sends.
      intro p _ s₀ hs₀ action haction s₁ call' hs₁ hsends _
      cases action with
      | dispatch target v own args =>
        obtain ⟨rfl, rfl, ht, hholds⟩ := hsends
        refine ih hs₁ hholds.knows fun c' d _ hd =>
          hsent d ⟨p, target, call'.level, own, call'.args, c', ?_, ?_⟩
        · rwa [hs₀.1.programs p] at haction
        · exact ⟨hd.context, hd.level, ht ▸ hd.msg, hholds.forms ▸ hd.keys⟩
      | _ => exact hsends.elim
    · -- The entry itself, once it has its fields and its message.
      refine fun h s₁ hx => ⟨hI.receptive a h, fun msg hm => ?_⟩
      refine hcall c _ hctx ⟨rfl, ⟨l, hl, rfl⟩, ⟨msg, hm, rfl⟩, ?_⟩
      have hkeys := Dispatch.entryFields_forms (dispatch_nestedExtends depth) (hs.1.passive hb)
        (hs.1.isClosed hc) hk hx
      rwa [hs.1.sourceOf, hs.1.contributed hc] at hkeys

/-- A run of dispatches through appenders that do not edit what they are handed leaves everything that
was given to it as it was, and so does each dispatch of it, however it ends: every mapping keeps its
entries in their order, and every context stays what it is. And a dispatch delivers no keys but its
own: whatever the others have put into their fields, it delivers what becomes of its own fields, of the
source of its own context and of what producers send by their programs, all as they stood before the
run. -/
theorem dispatch_alters_nothing_given (hs : s.IsPassive) (hc : s.IsClosed) (depth : Nat)
    (calls : List Call) (call : Call) (hk : s.Knows call.fields) :
    s.Extends (s.after depth calls) ∧
    (s.after depth calls).Extends (s.after depth (calls ++ [call])) ∧
    ∃ ds, (s.after depth (calls ++ [call])).deliveries = (s.after depth calls).deliveries ++ ds ∧
      ∀ d ∈ ds, s.Explains (s.after depth calls).defaults.context call d := by
  have hext := Store.after_extends hs depth calls
  refine ⟨hext, ?_⟩
  rw [Store.after_concat]
  generalize s.after depth calls = b at hext ⊢
  -- What the last call finds before it is what the run began with.
  have hfollows : b.Follows (s.Explains b.defaults.context call) ((dispatch depth call).leaves b) := by
    refine (dispatch_follows (hext.passive hs) (hext.isClosed hc) ?_ depth (.refl b _) (hext.knows hk)
      ?_).leaves
    · rintro d ⟨p, target, v, own, args, c, haction, hd⟩
      rw [hext.programs p] at haction
      exact .inr ⟨p, target, v, own, args, c, haction, hd.of_extends hext hc⟩
    · intro c d hctx hd
      rw [hext.supplied hk] at hd
      exact .inl ⟨c, hctx, hd.of_extends hext hc⟩
  exact hfollows

/-- A store with a context whose source puts a key into the fields that it is given, and with another
context without a source; both deliver to an appender that keeps entries. -/
def markingSource : Store where
  mappings := [.ofList [(.str "user", .str "ada")]]
  contexts := [{}, { source := .contextual (.producer ⟨0⟩) }]
  producers := [{
    signature := none
    program := [.pop (.str "user") (.str "who"), .put (.str "mark") (.int 1), .raise .none]
    typeName := "function"
    representation := "<function>" }]
  appenders := [.recording [] []]
  defaults := { appender := some ⟨0⟩ }

/-- An entry whose source puts a mark into its fields and then fails. -/
def markedEntry : Call := { context := some ⟨1⟩, level := .level .error, fields := .live ⟨0⟩ }

/-- An entry with the same fields, without a source. -/
def plainEntry : Call := { context := some ⟨0⟩, level := .level .error, fields := .live ⟨0⟩ }

/-- The mark of one entry is not in what the next one delivers. -/
theorem dispatch_alters_nothing_given_markingSource :
    markingSource.Extends (markingSource.after 1 [markedEntry]) ∧
    (markingSource.after 1 [markedEntry]).Extends (markingSource.after 1 [markedEntry, plainEntry]) ∧
    ∃ ds, (markingSource.after 1 [markedEntry, plainEntry]).deliveries =
        (markingSource.after 1 [markedEntry]).deliveries ++ ds ∧
      ∀ d ∈ ds, (Value.str "mark").keyForm ∉ d.fields.forms := by
  have hs : markingSource.IsPassive := by rintro ⟨_ | n⟩ <;> rfl
  have hc : markingSource.IsClosed := by rintro ⟨_ | _ | n⟩ m h <;> cases h
  obtain ⟨hrun, hlast, ds, hds, hd⟩ :=
    dispatch_alters_nothing_given hs hc 1 [markedEntry] plainEntry Nat.zero_lt_one
  refine ⟨hrun, hlast, ds, hds, fun d hmem hmark => ?_⟩
  rcases hd d hmem with ⟨c, hctx, hans⟩ | ⟨⟨_ | n⟩, target, v, own, args, c, haction, -⟩
  · cases hctx
    have hkey := hans.keys hmark
    revert hkey
    decide
  · simp [markingSource, Store.producer] at haction
  · cases haction

end ContextLog
