import ContextLog.Proofs.Contextual
import ContextLog.Proofs.Endings
/-!
# The law of an admitted entry

An admitted entry hands its own fields to the source of its context, as a copy if the source works on them
(`Store.Hands`), and what the source gives is set on what is then left of them (`Call.Resolves`). After that there are
four ways out: the source fails, the message fails, the appender fails, or the level of the entry says how it ends.
`emission_of_admits` says for each of them what has happened by then and which failure the caller sees; the appender is
called on the last two only, once, with exactly the resolved fields.
-/

namespace ContextLog

variable {s s₀ s₁ : Store} {call : Call} {c : ContextRef} {l : Level} {a : AppenderRef} {explicit own : Handle}
  {g : Fields} {source : Source} {depth : Nat} {nested : Call → Session Unit}

/-! ## What a source is handed -/

/-- The handle under which a source sees the fields of an entry, and the store at that moment. -/
structure Store.Hands (s : Store) (source : Source) (own explicit : Handle) (s₀ : Store) : Prop where
  /-- It holds the entry's own fields, or no fields. -/
  fields : s₀.supplied explicit = .fields (s.ownFields own)
  /-- A source that works on them has a copy, which stands behind all that was there. -/
  copied : source.isContextual = true →
    explicit = .live ⟨s.mappings.length⟩ ∧ s₀ = { s with mappings := s.mappings ++ [s.ownFields own] }
  /-- For any other source nothing is done. -/
  uncopied : source.isContextual = false → s₀ = s

/-- Nothing and every mapping can be handed to a source. -/
theorem Dispatch.explicitFields_hands (source : Source) (hr : (s.supplied own).IsRegular) :
    ∃ explicit s₀, explicitFields source own s = .ok explicit s₀ ∧ s.Hands source own explicit s₀ := by
  cases hs : source.isContextual with
  | true =>
    refine ⟨_, _, explicitFields_copy hs hr, ?_, fun _ => ⟨rfl, rfl⟩, fun h => ?_⟩
    · exact congrArg Supplied.fields (Store.mapping_allotted s _)
    · exact absurd (hs.symm.trans h).symm Bool.false_ne_true
  | false =>
    obtain ⟨explicit, hx, hf⟩ := explicitFields_plain hs hr
    exact ⟨explicit, s, hx, hf, fun h => absurd (hs.symm.trans h) Bool.false_ne_true, fun _ => rfl⟩

/-! ## What it comes to -/

/-- The fields that an entry gets, and the store once they are known. -/
inductive Call.Resolves (nested : Call → Session Unit) (call : Call) (c : ContextRef) (l : Level) (source : Source)
    (explicit : Handle) (s₀ : Store) : Fields → Store → Prop
  /-- Without a source they are those that the entry has. -/
  | unaided (hs : source.isAbsent = true) : call.Resolves nested c l source explicit s₀ (s₀.ownFields explicit) s₀
  /-- What a source gives is set on them as it has left them. -/
  | sourced {produced : Handle} {s₁ : Store} (hs : source.isAbsent = false)
      (hp : resolveSource nested source (Dispatch.scopeOf c l call explicit) s₀ = .ok produced s₁) :
    call.Resolves nested c l source explicit s₀ ((s₁.ownFields explicit).overlay (s₁.ownFields produced)) s₁

namespace Dispatch

theorem entryFields_run (he : explicitFields (s.sourceOf c) call.fields s = .ok explicit s₀) :
    entryFields nested c l call s = resolveFields nested (s.sourceOf c) (scopeOf c l call explicit) s₀ := by
  unfold entryFields
  rw [Session.run_bind_ok Session.run_get, Session.run_bind_ok he]
  rfl

/-- A source that fails is the end of its entry. -/
theorem entryFields_of_source_error {f : Failure}
    (he : explicitFields (s.sourceOf c) call.fields s = .ok explicit s₀) (hs : (s.sourceOf c).isAbsent = false)
    (hp : resolveSource nested (s.sourceOf c) (scopeOf c l call explicit) s₀ = .error f s₁) :
    entryFields nested c l call s = .error f s₁ := by
  rw [entryFields_run he, resolveFields, hs, if_neg Bool.false_ne_true]
  exact Session.run_bind_error hp

/-- Resolved fields are those of the entry, and at most one mapping is made of what they come from. -/
theorem entryFields_of_resolves (he : explicitFields (s.sourceOf c) call.fields s = .ok explicit s₀)
    (hm : explicit.IsMapping) (hg : call.Resolves nested c l (s.sourceOf c) explicit s₀ g s₁) :
    ∃ h s₂, entryFields nested c l call s = .ok h s₂ ∧ s₁.Allots s₂ ∧ s₂.supplied h = .fields g := by
  rw [entryFields_run he, resolveFields]
  have hheld : ∀ s : Store, s.supplied explicit = .fields (s.ownFields explicit) := by
    intro s
    obtain ⟨f, hf⟩ := hm s
    rw [Store.ownFields, hf]
  cases hg with
  | unaided hs =>
    rw [hs, if_pos rfl]
    exact ⟨explicit, s₀, rfl, .refl s₀, hheld s₀⟩
  | @sourced produced s₁ hs hp =>
    rw [hs, if_neg Bool.false_ne_true, Session.run_bind_ok hp]
    have hproduced : (s₁.supplied produced).IsRegular := by
      rcases resolveSource_gives _ hm _ _ _ hp with rfl | hm'
      · trivial
      · obtain ⟨f, hf⟩ := hm' s₁
        rw [hf]
        trivial
    obtain ⟨side, h, s₂, hmerge, hh, hs₂, -⟩ := mergeHandles_mergesTo (hheld s₁) hproduced
    exact ⟨h, s₂, Session.run_bind_ok hmerge, hs₂, hh⟩

/-- A source calls no appender, but for the entries that its producer sends. -/
theorem resolveSource_silent (hn : ∀ sent, (nested sent).IsSilent) (source : Source) (scope : Scope) :
    (resolveSource nested source scope).IsSilent := fun log =>
  Session.Yields.keeps fun _ hs => resolveSource_yields (Store.deliveries_stable log).toSteady hs
    (fun _ _ _ _ _ _ s' sent hs' _ _ => hn sent log s' hs') fun _ _ _ => trivial

end Dispatch

/-! ## The law -/

/-- What has happened to an admitted entry at each way out of its dispatch, if its source is handed `explicit` in the
store `s₀`. The entries that a producer sends are dispatches of their own, so that what has been delivered while the
source ran, up to `s₁`, is theirs. -/
structure Emission (depth : Nat) (s : Store) (call : Call) (c : ContextRef) (l : Level) (a : AppenderRef)
    (explicit : Handle) (s₀ : Store) : Prop where
  /-- The source calls no appender, unless its producer sends entries that do. -/
  unaided : ∀ nested : Call → Session Unit, (∀ sent, (nested sent).IsSilent) →
    (resolveSource nested (s.sourceOf c) (Dispatch.scopeOf c l call explicit)).IsSilent
  /-- If the source fails, nothing more is done, and its failure is the outcome. -/
  sourceFails : ∀ f s₁, (s.sourceOf c).isAbsent = false →
    resolveSource (dispatch depth) (s.sourceOf c) (Dispatch.scopeOf c l call explicit) s₀ = .error f s₁ →
    dispatch (depth + 1) call s = .error f s₁
  /-- If the message fails, no appender is called, and the failure is the outcome. -/
  messageFails : ∀ g s₁ f, call.Resolves (dispatch depth) c l (s.sourceOf c) explicit s₀ g s₁ →
    (formatMessage call.args call.templated).2 = .error f →
    ∃ s₂, s₁.Allots s₂ ∧
      dispatch (depth + 1) call s = .error f { s₂ with journal := s₂.journal ++ call.mismatches }
  /-- Else the appender is called once, with the resolved fields and with the message, and calls no other one. Its
  failure is the outcome, and is none by which dispatches end; if it returns, the outcome is what the level ends in. -/
  appended : ∀ g s₁ msg, call.Resolves (dispatch depth) c l (s.sourceOf c) explicit s₀ g s₁ →
    (formatMessage call.args call.templated).2 = .ok msg →
    ∃ h s₂ s₃, s₁.Allots s₂ ∧ s₂.supplied h = .fields g ∧
      s₂.Notes ⟨a, some c, .level l, .fields g, .text msg⟩ s₃ ∧
      (∀ f s₄, receive a (some c) (.level l) h (.text msg) s₃ = .error f s₄ →
        s₄.deliveries = s₃.deliveries ∧ f.isEnding = false ∧ dispatch (depth + 1) call s = .error f s₄) ∧
      ∀ s₄, receive a (some c) (.level l) h (.text msg) s₃ = .ok () s₄ →
        s₄.deliveries = s₃.deliveries ∧
          dispatch (depth + 1) call s = match l.ending msg with
            | .ok () => .ok () s₄
            | .error f => .error f s₄

/-- On the main thread every entry that is let through, with nothing or a mapping as its own fields, hands them to its
source and is emitted by the law: it reaches its appender once or not at all, and ends as its level says only if the
appender took it. -/
theorem emission_of_admits (ha : s.Admits call.context call.level c l a) (hr : (s.supplied call.fields).IsRegular)
    (hw : s.onWorker = false) (depth : Nat) :
    ∃ explicit s₀, s.Hands (s.sourceOf c) call.fields explicit s₀ ∧ Emission depth s call c l a explicit s₀ := by
  obtain ⟨explicit, s₀, he, hhands⟩ := Dispatch.explicitFields_hands (s.sourceOf c) hr
  have hm := Dispatch.explicitFields_isMapping hr he
  have hd : dispatch (depth + 1) call s = Dispatch.deliver (dispatch depth) c l a call s := by
    have hrun := dispatchWith_run (dispatch depth) call s
    rw [ha.admission] at hrun
    exact hrun
  refine ⟨explicit, s₀, hhands, ⟨fun nested hn => Dispatch.resolveSource_silent hn _ _, fun f s₁ hs hp => ?_,
    fun g s₁ f hg hmsg => ?_, fun g s₁ msg hg hmsg => ?_⟩⟩
  · rw [hd, Dispatch.deliver_of_fields_error (Dispatch.entryFields_of_source_error he hs hp)]
  · obtain ⟨h, s₂, hx, hs₂, -⟩ := Dispatch.entryFields_of_resolves he hm hg
    exact ⟨s₂, hs₂, hd.trans (Dispatch.deliver_of_mismatch hx hmsg)⟩
  · obtain ⟨h, s₂, hx, hs₂, hh⟩ := Dispatch.entryFields_of_resolves he hm hg
    obtain ⟨s₃, hn, hx'⟩ := Dispatch.deliver_of_message (a := a) hx (Dispatch.entryFields_isMapping hr hx) hmsg
    rw [hh] at hn
    have hsilent := receive_silent a (some c) (.level l) h (.text msg)
    refine ⟨h, s₂, s₃, hs₂, hh, hn, fun f s₄ hrec => ⟨?_, ?_, ?_⟩, fun s₄ hrec => ⟨?_, ?_⟩⟩
    · exact (hsilent _ s₃ rfl).error hrec
    · exact receive_fails a (some c) l h msg s₃ f s₄ hrec
    · rw [hd, hx', Session.run_bind_error hrec]
    · exact ((hsilent _ s₃ rfl).ok hrec).1
    · -- The entry is still on the main thread when its appender returns.
      have hw₂ := Dispatch.entryFields_main hw hx
      have hw₃ : s₃.onWorker = false := by
        obtain ⟨rs, rfl⟩ := hn
        exact hw₂
      exact hd.trans ((hx'.trans (Session.run_seq_ok hrec)).trans (Dispatch.followUp_main (receive_main hw₃ hrec)))

/-- A store with a context whose source moves a field of an entry and sends an entry of its own, and
with an appender that keeps entries. -/
def sendingSource : Store where
  mappings := [.ofList [(.str "user", .str "ada")]]
  contexts := [{}, { source := .contextual (.producer ⟨0⟩) }]
  producers := [{
    signature := none
    program := [.pop (.str "user") (.str "who"), .dispatch .default (.level .error) .nothing [.str "inner"]]
    typeName := "function"
    representation := "<function>" }]
  appenders := [.recording [] []]
  defaults := { appender := some ⟨0⟩ }

/-- An entry of rank 0 through that context, with the fields of a mapping. -/
def panickingCall : Call := { context := some ⟨1⟩, level := .int 0, fields := .live ⟨0⟩, args := [.str "m"] }

/-- The producer is handed a copy of those fields. -/
theorem emission_of_admits_sendingSource :
    Emission 1 sendingSource panickingCall ⟨1⟩ .panic ⟨0⟩ (.live ⟨1⟩)
      { sendingSource with mappings := sendingSource.mappings ++ [sendingSource.ownFields (.live ⟨0⟩)] } := by
  have ha : sendingSource.Admits panickingCall.context panickingCall.level ⟨1⟩ .panic ⟨0⟩ :=
    ⟨rfl, .inl rfl, by decide, by decide, by decide⟩
  obtain ⟨explicit, s₀, hhands, hemission⟩ := emission_of_admits ha trivial rfl 1
  obtain ⟨rfl, rfl⟩ := hhands.copied rfl
  exact hemission

end ContextLog
