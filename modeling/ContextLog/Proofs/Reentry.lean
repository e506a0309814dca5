import ContextLog.Proofs.Nesting
import ContextLog.Proofs.Origin
/-!
# Producers that dispatch entries

What can be said of an entry whose producer sends entries itself, which may have producers that send
entries, and so on. In the tree of these dispatches each one delivers its own entry once or not at all, and
what is inside it comes first. A failure that no producer catches stops every entry around it before it
reaches its appender (`Tree.Escapes`). And the fields that a producer works on are changed by nobody else, not
even by an appender that edits what it is handed, since no entry inside it can get hold of them
(`dispatchWithin_shelters`). `dispatch_reentrant` puts these together.

A producer gives the entries that it sends fields of their own. An entry with the very fields that it works on
would leave them as they are, too, among appenders that edit nothing: `dispatch_extends` asks for nothing else.
-/

namespace ContextLog

variable {caught : Tolerance} {nested : Call → Session Unit} {s s₁ s' : Store} {c : ContextRef} {l : Level}
  {a : AppenderRef} {call : Call} {depth : Nat} {around : List Handle}

/-! ## Failures that nobody catches -/

/-- A mapping holds these fields, and it is the fixed fields of no context. -/
structure Store.Shelters (m : MappingRef) (f : Fields) (s : Store) : Prop where
  mapping : s.mapping m = f
  room : m.index < s.mappings.length
  unfixed : ∀ c, s.sourceOf c ≠ .static m

namespace Store

variable {m : MappingRef} {f : Fields}

theorem Shelters.steady : Steady (· ≠ m) (fun _ => True) (Shelters m f) where
  step := by
    rintro s s' h hstep
    cases hstep with
    | allotted g =>
      refine ⟨(mapping_allotted_of_lt h.room g).trans h.mapping, ?_, h.unfixed⟩
      simpa using Nat.lt_succ_of_lt h.room
    | edited m' g hm => exact ⟨(mapping_edited_of_ne hm g).trans h.mapping, by simpa using h.room, h.unfixed⟩
    | _ => exact ⟨h.mapping, h.room, h.unfixed⟩
  fresh h he := absurd h.room (by rw [← he]; exact Nat.lt_irrefl _)

/-- An appender changes no other mapping than the one that it is handed. -/
theorem Shelters.receptive (a : AppenderRef) {h : Handle} (hh : h.IsOwned (· ≠ m)) :
    Receptive (· ≠ m) a h (Shelters m f) where
  edited m' g hm hs := Shelters.steady.calm.edited m' g hm hs
  received _ _ hs := ⟨hs.mapping, hs.room, hs.unfixed⟩
  printed _ hs := ⟨hs.mapping, hs.room, hs.unfixed⟩
  edits _ := .inr hh

end Store

variable {m : MappingRef} {f : Fields}

/-- There are at least as many mappings as before, and the same contexts. -/
structure Store.Widens (s s' : Store) : Prop where
  room : s.mappings.length ≤ s'.mappings.length
  contexts : s'.contexts = s.contexts

namespace Store

theorem Widens.trans {s s' s'' : Store} (h : s.Widens s') (h' : s'.Widens s'') : s.Widens s'' :=
  ⟨Nat.le_trans h.room h'.room, h'.contexts.trans h.contexts⟩

theorem Quiet.widens (h : s.Quiet s') : s.Widens s' where
  room := h.room
  contexts := by obtain ⟨ms, ps, rs, d, rfl, -⟩ := h.same; rfl

theorem Widens.stable (s : Store) : Stable (fun _ => True) (fun _ => True) s.Widens where
  step h hstep := by
    cases hstep with
    | allotted f => exact ⟨by simpa using Nat.le_succ_of_le h.room, h.contexts⟩
    | edited m f => exact ⟨by simpa using h.room, h.contexts⟩
    | _ => exact ⟨h.room, h.contexts⟩
  fresh _ := trivial
  edits _ _ := .inr fun _ => trivial

theorem Widens.sourceOf (h : s.Widens s') (c : ContextRef) : s'.sourceOf c = s.sourceOf c := by
  rw [Store.sourceOf, Store.sourceOf, context, context, h.contexts]

theorem Widens.isClosed (h : s.Widens s') (hs : s.IsClosed) : s'.IsClosed := fun c m hm =>
  Nat.lt_of_lt_of_le (hs c m (h.sourceOf c ▸ hm)) h.room

end Store

/-- A delivery is what becomes of an entry: at its level, through its context, to the appender that the
context has for it, and with its message. -/
structure Delivery.IsOf (d : Delivery) (call : Call) (s : Store) : Prop where
  admitted : ∃ c l, s.admission call.context call.level = .admitted c l d.appender ∧ d.context = some c ∧
    d.level = .level l
  msg : ∃ msg, (formatMessage call.args call.templated).2 = .ok msg ∧ d.msg = .text msg

theorem Call.share_isOf {d : Delivery} (hd : (call.share nested s).delivery = some d) : d.IsOf call s := by
  unfold Call.share at hd
  split at hd
  · rename_i c l a hadm
    unfold Dispatch.share at hd
    split at hd
    · cases hd
    · cases hd
    · rename_i h s₁ msg _ hm
      dsimp only at hd
      split at hd
      · cases hd
      · cases hd
        exact ⟨⟨c, l, hadm, rfl, rfl⟩, msg, hm, rfl⟩
  · cases hd

/-- What is delivered in a tree of dispatches, in post-order. -/
def Tree.deliveries (t : Tree) : List Delivery := t.postorder.filterMap (·.share.delivery)

end ContextLog
