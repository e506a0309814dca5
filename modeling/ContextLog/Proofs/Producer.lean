import ContextLog.Proofs.Frame
import ContextLog.Proofs.Writes
/-!
# What a producer leaves behind

An action that comes to its end has edited the fields of the entry as `Action.onFields` says, or has
only extended the store; and it has written at most one key to the output (`Produce.act_ok`). A run is
a list of such actions, so all keys that it leaves in the fields or gives as its output were there
before or are written by its program (`Produce.run_ok`).
-/

namespace ContextLog

/-- What an action makes of the fields of the entry. -/
def Action.onFields (f : Fields) : Action → Fields
  | .pop key _ | .mustPop key _ => f.erase key
  | .put key value => f.set key value
  | .clear => .empty
  | _ => f

/-- The keys that an action writes, to the fields of the entry or to the output. -/
def Action.writes : Action → List Value
  | .pop _ out | .mustPop _ out | .level out | .argumentCount out | .arguments out | .fieldCount out
  | .fieldKeys out | .contextValue _ out | .callCount out => [out]
  | .put key _ | .output key _ => [key]
  | _ => []

/-- Whatever `nested` dispatches, all that the store holds stays as it was. -/
def NestedExtends (nested : Call → Session Unit) : Prop :=
  ∀ (call : Call) (s : Store), s.IsPassive → s.Extends ((nested call).leaves s)

theorem NestedExtends.ok {nested : Call → Session Unit} (hn : NestedExtends nested) {call : Call}
    {s s' : Store} (hs : s.IsPassive) (h : nested call s = .ok () s') : s.Extends s' :=
  Session.leaves_ok h ▸ hn call s hs

/-- What a store holds is kept while a producer sends entries. -/
theorem NestedExtends.keeps {nested : Call → Session Unit} (hn : NestedExtends nested) {s : Store}
    (hs : s.IsPassive) (owned : MappingRef → Prop) (p : ProducerRef) :
    NestedKeeps owned s.Extends nested p := fun _ _ _ _ s' call h _ _ =>
  .of_leaves (h.trans (hn call s' (h.passive hs)))

theorem dispatch_nestedExtends (depth : Nat) : NestedExtends (dispatch depth) := fun call _ hs =>
  dispatch_extends hs depth call

variable {nested : Call → Session Unit} {s s' : Store}

namespace Produce

/-! ## One action -/

theorem write_ok {output out : Fields} {key value : Value}
    (h : write output key value s = .ok out s') : s' = s ∧ out = output.set key value := by
  obtain ⟨_, s₁, hk, h⟩ := Session.bind_ok h
  cases h
  exact ⟨Session.eq_of_keeps (fun _ => Session.checkKey_keeps key) hk, rfl⟩

theorem editable_ok {fields : Handle} {fault : String → Failure} {m : MappingRef} {f : Fields}
    (h : editable fields fault s = .ok (m, f) s') : s' = s ∧ fields = .live m ∧ f = s.mapping m := by
  obtain ⟨rfl, hf, hm⟩ := (editable_yields (I := (· = s)) rfl fields fault).ok h
  exact ⟨rfl, hf, hm⟩

/-- A field that is there has been moved; else `missing` was done. -/
theorem move_ok {fields : Handle} {fault : String → Failure} {key out : Value} {output output' : Fields}
    {missing : Session Fields} (h : move fields fault key out output missing s = .ok output' s') :
    ∃ m, fields = .live m ∧
      ((∃ v, output' = output.set out v ∧
          s' = { s with mappings := s.mappings.set m.index ((s.mapping m).erase key) }) ∨
        (s.mapping m).get? key = none ∧ missing s = .ok output' s') := by
  obtain ⟨⟨m, f⟩, s₁, he, h⟩ := Session.bind_ok h
  obtain ⟨rfl, hf, rfl⟩ := editable_ok he
  obtain ⟨_, s₂, hk, h⟩ := Session.bind_ok h
  obtain rfl := Session.eq_of_keeps (fun _ => Session.checkKey_keeps key) hk
  refine ⟨m, hf, ?_⟩
  cases hg : (s₂.mapping m).get? key with
  | none =>
    simp only [hg] at h
    exact .inr ⟨rfl, h⟩
  | some v =>
    simp only [hg] at h
    obtain ⟨_, s₃, hset, h⟩ := Session.bind_ok h
    cases hset
    obtain ⟨rfl, rfl⟩ := write_ok h
    exact .inl ⟨v, rfl, rfl⟩

/-- What an action does to the store: it edits the fields of the entry, or edits nothing at all. -/
def Edits (scope : Scope) (action : Action) (s s' : Store) : Prop :=
  (∃ m, scope.fields = .live m ∧
    s' = { s with mappings := s.mappings.set m.index (action.onFields (s.mapping m)) }) ∨
  s.Extends s' ∧ ∀ m, scope.fields = .live m → action.onFields (s.mapping m) = s.mapping m

/-- What an action does to the output: at most one of its keys is set. -/
def Outputs (action : Action) (output out : Fields) : Prop :=
  out = output ∨ ∃ key ∈ action.writes, ∃ v, out = output.set key v

theorem act_ok (hn : NestedExtends nested) (hs : s.IsPassive) {p : ProducerRef} {scope : Scope}
    {output out : Fields} {action : Action} (h : act nested p scope output action s = .ok out s') :
    Edits scope action s s' ∧ Outputs action output out := by
  -- Most actions write a key and leave the store as it is.
  have hwrite : ∀ {key value : Value} {s₁ : Store}, write output key value s₁ = .ok out s' → s₁ = s →
      key ∈ action.writes → (∀ f, action.onFields f = f) →
      Edits scope action s s' ∧ Outputs action output out := by
    rintro key value s₁ hw rfl hkey hon
    obtain ⟨rfl, rfl⟩ := write_ok hw
    exact ⟨.inr ⟨.refl _, fun m _ => hon _⟩, .inr ⟨key, hkey, value, rfl⟩⟩
  cases action with
  | pop key o =>
    obtain ⟨m, hf, ⟨v, rfl, rfl⟩ | ⟨hg, h⟩⟩ := move_ok h
    · exact ⟨.inl ⟨m, hf, rfl⟩, .inr ⟨o, List.mem_singleton_self o, v, rfl⟩⟩
    · cases h
      refine ⟨.inr ⟨.refl _, fun m' hm' => ?_⟩, .inl rfl⟩
      cases hf.symm.trans hm'
      exact Fields.erase_of_get? hg
  | mustPop key o =>
    obtain ⟨m, hf, ⟨v, rfl, rfl⟩ | ⟨-, h⟩⟩ := move_ok h
    · exact ⟨.inl ⟨m, hf, rfl⟩, .inr ⟨o, List.mem_singleton_self o, v, rfl⟩⟩
    · cases h
  | put key value =>
    obtain ⟨⟨m, f⟩, s₁, he, h⟩ := Session.bind_ok h
    obtain ⟨rfl, hf, rfl⟩ := editable_ok he
    obtain ⟨_, s₂, hk, h⟩ := Session.bind_ok h
    obtain rfl := Session.eq_of_keeps (fun _ => Session.checkKey_keeps key) hk
    cases h
    exact ⟨.inl ⟨m, hf, rfl⟩, .inl rfl⟩
  | clear =>
    obtain ⟨⟨m, f⟩, s₁, he, h⟩ := Session.bind_ok h
    obtain ⟨rfl, hf, rfl⟩ := editable_ok he
    cases h
    exact ⟨.inl ⟨m, hf, rfl⟩, .inl rfl⟩
  | output key value => exact hwrite h rfl (List.mem_singleton_self _) fun _ => rfl
  | level o =>
    obtain ⟨text, s₁, hl, h⟩ := Session.bind_ok h
    exact hwrite h (Session.eq_of_keeps (fun _ => .lift _) hl) (List.mem_singleton_self _) fun _ => rfl
  | argumentCount o => exact hwrite h rfl (List.mem_singleton_self _) fun _ => rfl
  | arguments o => exact hwrite h rfl (List.mem_singleton_self _) fun _ => rfl
  | fieldCount o =>
    obtain ⟨⟨m, f⟩, s₁, he, h⟩ := Session.bind_ok h
    exact hwrite h (editable_ok he).1 (List.mem_singleton_self _) fun _ => rfl
  | fieldKeys o =>
    obtain ⟨⟨m, f⟩, s₁, he, h⟩ := Session.bind_ok h
    exact hwrite h (editable_ok he).1 (List.mem_singleton_self _) fun _ => rfl
  | contextValue key o =>
    unfold act at h
    cases hc : scope.context with
    | none => rw [hc] at h; cases h
    | some c =>
      rw [hc] at h
      obtain ⟨_, _, hg, h⟩ := Session.bind_ok h
      cases hg
      obtain ⟨v, s₁, hv, h⟩ := Session.bind_ok h
      exact hwrite h (Session.eq_of_keeps (fun _ => .lift _) hv) (List.mem_singleton_self _) fun _ => rfl
  | callCount o => exact hwrite h rfl (List.mem_singleton_self _) fun _ => rfl
  | dispatch target l fields args =>
    obtain ⟨context, s₁, hd, h₁⟩ := Session.bind_ok h
    obtain rfl := Session.eq_of_keeps (fun _ => destination_keeps target) hd
    obtain ⟨sent, s₂, hf, h₂⟩ := Session.bind_ok h₁
    have hext := ((sentFields_yields (Store.Extends.stable hs).toSteady.calm (.refl s₁) fields).ok hf).1
    obtain ⟨_, s₃, hc, h₃⟩ := Session.bind_ok h₂
    cases h₃
    have hsent := hn.ok (hext.passive hs) hc
    exact ⟨.inr ⟨hext.trans hsent, fun _ _ => rfl⟩, .inl rfl⟩
  | configure changes =>
    obtain ⟨_, s₁, hc, h⟩ := Session.bind_ok h
    cases h
    have hext := ((configure_keeps (Store.Extends.stable hs).toSteady changes s (.refl s)).ok hc).1
    exact ⟨.inr ⟨hext, fun _ _ => rfl⟩, .inl rfl⟩
  | reset environment =>
    obtain ⟨_, s₁, hc, h⟩ := Session.bind_ok h
    cases h
    have hext := ((resetDefaults_keeps (Store.Extends.stable hs).toSteady environment s (.refl s)).ok hc).1
    exact ⟨.inr ⟨hext, fun _ _ => rfl⟩, .inl rfl⟩
  | raise error => cases h
  | giveNothing => cases h; exact ⟨.inr ⟨.refl _, fun _ _ => rfl⟩, .inl rfl⟩
  | giveFields => cases h; exact ⟨.inr ⟨.refl _, fun _ _ => rfl⟩, .inl rfl⟩

theorem Edits.passive {scope : Scope} {action : Action} (h : Edits scope action s s')
    (hs : s.IsPassive) : s'.IsPassive := by
  obtain ⟨m, -, rfl⟩ | ⟨h, -⟩ := h
  · exact hs
  · exact h.passive hs

theorem Edits.room {scope : Scope} {action : Action} (h : Edits scope action s s') :
    s.mappings.length ≤ s'.mappings.length := by
  obtain ⟨m, -, rfl⟩ | ⟨h, -⟩ := h
  · simp
  · exact h.room

/-- After an action the fields of the entry are what it makes of them. -/
theorem Edits.mapping {scope : Scope} {action : Action} (h : Edits scope action s s') {m : MappingRef}
    (hf : scope.fields = .live m) (hm : m.index < s.mappings.length) :
    s'.mapping m = action.onFields (s.mapping m) := by
  obtain ⟨m', hf', rfl⟩ | ⟨h, hon⟩ := h
  · cases hf.symm.trans hf'
    exact Store.mapping_edited hm _
  · rw [hon m hf, h.mappings m hm]

/-! ## The keys of a run -/

variable {K : List (List Value.KeyAtom)}

theorem forms_onFields {f : Fields} {action : Action} (hf : entryForms f.entries ⊆ K)
    (hw : action.writes.map Value.keyForm ⊆ K) : entryForms (action.onFields f).entries ⊆ K := by
  cases action with
  | pop key o => exact fun form h => hf (Fields.mem_forms_of_erase h)
  | mustPop key o => exact fun form h => hf (Fields.mem_forms_of_erase h)
  | put key value =>
    intro form h
    rcases Fields.mem_forms_set.1 h with h | rfl
    · exact hf h
    · exact hw (List.mem_singleton_self _)
  | clear => exact List.nil_subset _
  | _ => exact hf

theorem Outputs.forms {action : Action} {output out : Fields} (h : Outputs action output out)
    (ho : entryForms output.entries ⊆ K) (hw : action.writes.map Value.keyForm ⊆ K) :
    entryForms out.entries ⊆ K := by
  obtain rfl | ⟨key, hkey, v, rfl⟩ := h
  · exact ho
  · intro form hform
    rcases Fields.mem_forms_set.1 hform with h | rfl
    · exact ho h
    · exact hw (List.mem_map_of_mem hkey)

end Produce

/-- A handle is nothing, or a mapping in the store with no other keys than these. -/
def Store.Confines (s : Store) (K : List (List Value.KeyAtom)) : Handle → Prop
  | .nothing => True
  | .live m => m.index < s.mappings.length ∧ entryForms (s.mapping m).entries ⊆ K
  | _ => False

theorem Store.Extends.confines {K : List (List Value.KeyAtom)} (h : s.Extends s') {handle : Handle}
    (hc : s.Confines K handle) : s'.Confines K handle := by
  cases handle with
  | live m => exact ⟨Nat.lt_of_lt_of_le hc.1 h.room, (h.mappings m hc.1).symm ▸ hc.2⟩
  | _ => exact hc

theorem Produce.Edits.confines {K : List (List Value.KeyAtom)} {scope : Scope} {action : Action}
    (h : Edits scope action s s') (hc : s.Confines K scope.fields)
    (hw : action.writes.map Value.keyForm ⊆ K) : s'.Confines K scope.fields := by
  cases hf : scope.fields with
  | live m =>
    rw [hf] at hc
    refine ⟨Nat.lt_of_lt_of_le hc.1 h.room, ?_⟩
    rw [h.mapping hf hc.1]
    exact forms_onFields hc.2 hw
  | _ => rw [hf] at hc; exact hc

/-- The keys that the actions of a program write. -/
def Action.allWrites (program : List Action) : List Value := program.flatMap Action.writes

namespace Produce

variable {K : List (List Value.KeyAtom)}

/-- A run that comes to its end: all keys in the fields that it was given, and all keys of its output,
are keys that were there before or keys that its program writes. -/
theorem run_ok (hn : NestedExtends nested) {p : ProducerRef} {scope : Scope} {program : List Action}
    (hw : (Action.allWrites program).map Value.keyForm ⊆ K) {output : Fields}
    (ho : entryForms output.entries ⊆ K) (hs : s.IsPassive) (hf : s.Confines K scope.fields) {r : Handle}
    (h : run nested p scope output program s = .ok r s') :
    s'.Confines K r ∧ s'.Confines K scope.fields := by
  induction program generalizing output s with
  | nil =>
    obtain ⟨m, s₁, hm, h⟩ := Session.bind_ok h
    cases h
    obtain ⟨hext, -, -, hlt, rfl⟩ :=
      (Session.newMapping_yields (Store.Extends.stable hs).toSteady.calm (.refl s) output).ok hm
    exact ⟨⟨hlt, ho⟩, hext.confines hf⟩
  | cons action rest ih =>
    have hw' : (Action.allWrites rest).map Value.keyForm ⊆ K ∧ action.writes.map Value.keyForm ⊆ K := by
      simpa [Action.allWrites, and_comm] using hw
    -- Two actions end the run; any other one is followed by the rest, within the same keys.
    cases action with
    | giveNothing => cases h; exact ⟨trivial, hf⟩
    | giveFields => cases h; exact ⟨hf, hf⟩
    | _ =>
      obtain ⟨out, s₁, ha, hrest⟩ := Session.bind_ok h
      obtain ⟨hedits, hout⟩ := act_ok hn hs ha
      exact ih hw'.1 (hout.forms ho hw'.2) (hedits.passive hs) (hedits.confines hf hw'.2) hrest

/-- What a call gives, and what it leaves in the fields that it was given. -/
theorem call_ok (hn : NestedExtends nested) {p : ProducerRef} {scope : Scope}
    (hw : (Action.allWrites (s.producer p).program).map Value.keyForm ⊆ K) (hs : s.IsPassive)
    (hf : s.Confines K scope.fields) {r : Handle} (h : call nested p scope s = .ok r s') :
    s'.Confines K r ∧ s'.Confines K scope.fields := by
  unfold call at h
  rw [Session.run_bind_ok Session.run_get, Session.run_seq_ok (Session.run_modify _)] at h
  refine run_ok hn hw (List.nil_subset _) ?_ ?_ h
  · exact hs
  · cases hfields : scope.fields with
    | live m => rw [hfields] at hf; exact hf
    | _ => rw [hfields] at hf; exact hf

theorem invoke_ok (hn : NestedExtends nested) {of : Source} {count : Nat} {scope : Scope}
    (hw : ∀ p, of = .producer p → (Action.allWrites (s.producer p).program).map Value.keyForm ⊆ K)
    (hs : s.IsPassive) (hf : s.Confines K scope.fields) {r : Handle}
    (h : invoke nested of count scope s = .ok r s') :
    s'.Confines K r ∧ s'.Confines K scope.fields := by
  unfold invoke at h
  cases of with
  | producer p =>
    obtain ⟨_, _, hg, h⟩ := Session.bind_ok h
    cases hg
    dsimp only at h
    cases hsig : (s.producer p).parameters with
    | none =>
      rw [hsig] at h
      exact call_ok hn (hw p rfl) hs hf h
    | some signature =>
      rw [hsig] at h
      dsimp only at h
      split at h
      · exact call_ok hn (hw p rfl) hs hf h
      · cases h
  | _ => cases h

end Produce

end ContextLog
