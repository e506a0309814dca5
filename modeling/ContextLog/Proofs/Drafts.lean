import ContextLog.Proofs.Producer
import ContextLog.Proofs.Merging
import ContextLog.Proofs.Settings
/-!
# Producers on a draft

A producer that sends no entries and leaves the defaults alone works on two mappings: the fields that it is given and
its output. `Draft.run` runs such a program on the two of them, without a store; in a store the run is the same one on
the mapping that holds the fields, and changes nothing else (`Produce.run_drafts`).

What becomes of the fields is told by the actions that are run, one after the other (`Draft.run_fields`): key by key
(`Fields.get?_edited`), and for all keys that no action touches at once (`Fields.filter_edited`).
-/

namespace ContextLog

/-! ## Edits of the fields -/

namespace Action

/-- Is the action the last one that is run? -/
def endsRun : Action → Bool
  | giveNothing | giveFields => true
  | _ => false

/-- The actions of a program that are run: all before the first one that ends the run. -/
def executed (program : List Action) : List Action := program.takeWhile (!·.endsRun)

/-- Does an action take a key away, if it is there? -/
def deletes (k : Value) : Action → Bool
  | pop key _ | mustPop key _ => key.SameKey k
  | clear => true
  | _ => false

/-- Does an action set a key? -/
def puts (k : Value) : Action → Bool
  | put key _ => key.SameKey k
  | _ => false

/-- What an action makes of what the fields hold under a key. -/
def onKey (k : Value) (held : Option Value) : Action → Option Value
  | put key value => if key.SameKey k then some value else held
  | action => if action.deletes k then none else held

end Action

theorem findEntry_eraseEntry (k j : Value) {es : List (Value × Value)} (hd : (entryForms es).Nodup) :
    findEntry j (eraseEntry k es) = if k.SameKey j then none else findEntry j es := by
  induction es with
  | nil => simp [eraseEntry, findEntry]
  | cons e es ih =>
    obtain ⟨hnew, hd⟩ := List.nodup_cons.1 hd
    by_cases h : e.1.SameKey k
    · have h' : e.1.keyForm = k.keyForm := h
      by_cases hj : k.SameKey j
      · -- The key does not stand a second time behind its entry.
        have hnone : findEntry j es = none := by
          rw [findEntry_eq_none_iff, ← show k.keyForm = j.keyForm from hj, ← h']
          exact hnew
        simp [eraseEntry, h, hj, hnone]
      · have hej : ¬ e.1.SameKey j := fun q => hj (h'.symm.trans q)
        simp [eraseEntry, findEntry, h, hj, hej]
    · by_cases hej : e.1.SameKey j
      · have hj : ¬ k.SameKey j := fun q => h (hej.trans (Eq.symm q))
        simp [eraseEntry, findEntry, h, hj, hej]
      · simp [eraseEntry, findEntry, h, hej, ih hd]

/-- A write of a key leaves the entries under other keys as they are. -/
theorem filter_setEntry {k : Value} {other : Value → Bool} (h : ∀ j : Value, k.SameKey j → other j = false) (v : Value)
    (es : List (Value × Value)) :
    (setEntry k v es).filter (fun e => other e.1) = es.filter fun e => other e.1 := by
  induction es with
  | nil => simp [setEntry, h k rfl]
  | cons e es ih =>
    by_cases hk : e.1.SameKey k
    · simp [setEntry, hk, h e.1 (Eq.symm hk)]
    · simp [setEntry, hk, List.filter_cons, ih]

theorem filter_eraseEntry {k : Value} {other : Value → Bool} (h : ∀ j : Value, k.SameKey j → other j = false)
    (es : List (Value × Value)) :
    (eraseEntry k es).filter (fun e => other e.1) = es.filter fun e => other e.1 := by
  induction es with
  | nil => rfl
  | cons e es ih =>
    by_cases hk : e.1.SameKey k
    · simp [eraseEntry, hk, h e.1 (Eq.symm hk)]
    · simp [eraseEntry, hk, List.filter_cons, ih]

namespace Fields

variable {f g : Fields} {k : Value} {actions : List Action}

theorem get?_erase (f : Fields) (k j : Value) : (f.erase k).get? j = if k.SameKey j then none else f.get? j :=
  findEntry_eraseEntry k j f.distinct

/-- The fields after some edits, made one after the other. -/
def edited (f : Fields) (actions : List Action) : Fields := actions.foldl Action.onFields f

theorem get?_onFields (f : Fields) (action : Action) (k : Value) :
    (action.onFields f).get? k = action.onKey k (f.get? k) := by
  cases action with
  | pop key out => simp [Action.onFields, Action.onKey, Action.deletes, get?_erase]
  | mustPop key out => simp [Action.onFields, Action.onKey, Action.deletes, get?_erase]
  | put key value => exact f.get?_set key value k
  | clear => rfl
  | _ => simp [Action.onFields, Action.onKey, Action.deletes]

/-- What the fields hold under a key in the end is told by the edits of that key. -/
theorem get?_edited (f : Fields) (actions : List Action) (k : Value) :
    (f.edited actions).get? k = actions.foldl (Action.onKey k) (f.get? k) := by
  induction actions generalizing f with
  | nil => rfl
  | cons action rest ih =>
    show ((action.onFields f).edited rest).get? k = rest.foldl (Action.onKey k) (action.onKey k (f.get? k))
    rw [ih, get?_onFields]

theorem foldl_onKey_of_not_puts (h : ∀ action ∈ actions, action.puts k = false) :
    actions.foldl (Action.onKey k) none = none := by
  induction actions with
  | nil => rfl
  | cons action rest ih =>
    obtain ⟨haction, hrest⟩ := List.forall_mem_cons.1 h
    have hstep : action.onKey k none = none := by
      cases action with
      | put key value =>
        have hne : ¬ key.SameKey k := by simpa [Action.puts] using haction
        simp [Action.onKey, hne]
      | _ => simp [Action.onKey]
    rw [List.foldl_cons, hstep]
    exact ih hrest

theorem foldl_onKey_of_untouched {held : Option Value}
    (h : ∀ action ∈ actions, action.deletes k = false ∧ action.puts k = false) :
    actions.foldl (Action.onKey k) held = held := by
  induction actions with
  | nil => rfl
  | cons action rest ih =>
    obtain ⟨⟨hdeletes, hputs⟩, hrest⟩ := List.forall_mem_cons.1 h
    have hstep : action.onKey k held = held := by
      cases action with
      | put key value =>
        have hne : ¬ key.SameKey k := by simpa [Action.puts] using hputs
        simp [Action.onKey, hne]
      | _ => simp [Action.onKey, hdeletes]
    rw [List.foldl_cons, hstep]
    exact ih hrest

/-- A key that is deleted and not put back is not there. -/
theorem get?_edited_of_deleted {earlier later : List Action} {action : Action} (hdeletes : action.deletes k)
    (hlater : ∀ b ∈ later, b.puts k = false) : (f.edited (earlier ++ action :: later)).get? k = none := by
  have hstep : ∀ held, action.onKey k held = none := by
    intro held
    cases action with
    | put key value => cases hdeletes
    | _ => simp [Action.onKey, hdeletes]
  rw [get?_edited, List.foldl_append, List.foldl_cons, hstep, foldl_onKey_of_not_puts hlater]

theorem isSome_foldl_onKey {held : Option Value} (hheld : held.isSome)
    (h : ∀ action ∈ actions, action.deletes k = false) : (actions.foldl (Action.onKey k) held).isSome := by
  induction actions generalizing held with
  | nil => exact hheld
  | cons action rest ih =>
    obtain ⟨hdeletes, hrest⟩ := List.forall_mem_cons.1 h
    refine ih ?_ hrest
    cases action with
    | put key value =>
      by_cases hk : key.SameKey k
      · simp [Action.onKey, hk]
      · simpa [Action.onKey, hk] using hheld
    | _ => simpa [Action.onKey, hdeletes] using hheld

/-- A key that is put and not deleted again is there. -/
theorem isSome_get?_edited_of_put {earlier later : List Action} {key value : Value} (hk : key.SameKey k)
    (hlater : ∀ b ∈ later, b.deletes k = false) :
    ((f.edited (earlier ++ .put key value :: later)).get? k).isSome := by
  have hstep : ∀ held, (Action.put key value).onKey k held = some value := fun held => if_pos hk
  rw [get?_edited, List.foldl_append, List.foldl_cons, hstep]
  exact isSome_foldl_onKey rfl hlater

/-- If it is not put again either, it has the value that was put. -/
theorem get?_edited_of_put {earlier later : List Action} {key value : Value} (hk : key.SameKey k)
    (hlater : ∀ b ∈ later, b.deletes k = false ∧ b.puts k = false) :
    (f.edited (earlier ++ .put key value :: later)).get? k = some value := by
  have hstep : ∀ held, (Action.put key value).onKey k held = some value := fun held => if_pos hk
  rw [get?_edited, List.foldl_append, List.foldl_cons, hstep, foldl_onKey_of_untouched hlater]

/-- The entries under keys that no edit touches stay as they are, in their order. -/
theorem filter_edited {other : Value → Bool}
    (h : ∀ action ∈ actions, ∀ k, (action.deletes k || action.puts k) → other k = false) (f : Fields) :
    (f.edited actions).entries.filter (fun e => other e.1) = f.entries.filter fun e => other e.1 := by
  induction actions generalizing f with
  | nil => rfl
  | cons action rest ih =>
    obtain ⟨haction, hrest⟩ := List.forall_mem_cons.1 h
    have hstep : (action.onFields f).entries.filter (fun e => other e.1) = f.entries.filter fun e => other e.1 := by
      cases action with
      | pop key out => exact filter_eraseEntry (fun j hj => haction j (by simp [Action.deletes, hj])) f.entries
      | mustPop key out => exact filter_eraseEntry (fun j hj => haction j (by simp [Action.deletes, hj])) f.entries
      | put key value => exact filter_setEntry (fun j hj => haction j (by simp [Action.puts, hj])) value f.entries
      | clear =>
        have hall : f.entries.filter (fun e => other e.1) = [] :=
          List.filter_eq_nil_iff.2 fun e _ => by simp [haction e.1 rfl]
        exact hall.symm
      | _ => rfl
    exact (ih hrest (action.onFields f)).trans hstep

theorem filter_overlay {other : Value → Bool} (h : ∀ k, (g.get? k).isSome → other k = false) (f : Fields) :
    (f.overlay g).entries.filter (fun e => other e.1) = f.entries.filter fun e => other e.1 := by
  have hsets : ∀ es : List (Value × Value), (∀ e ∈ es, e ∈ g.entries) → ∀ f : Fields,
      (f.setAll es).entries.filter (fun e => other e.1) = f.entries.filter fun e => other e.1 := by
    intro es
    induction es with
    | nil => exact fun _ f => rfl
    | cons e es ih =>
      intro hes f
      obtain ⟨he, hes⟩ := List.forall_mem_cons.1 hes
      have hkey : ∀ j : Value, e.1.SameKey j → other j = false := fun j hj => h j <| by
        rw [isSome_get?_iff, ← show e.1.keyForm = j.keyForm from hj]
        exact List.mem_map_of_mem he
      exact (ih hes (f.set e.1 e.2)).trans (filter_setEntry hkey e.2 f.entries)
  exact hsets g.entries (fun _ he => he) f

end Fields

/-! ## A run on a draft -/

/-- What a producer sees of an entry besides its fields. -/
structure Sight where
  context : Option Context
  level : Value
  args : List Value
  /-- How often the producer has been called. -/
  calls : Nat

/-- The fields of an entry that a producer works on, with the output that it has written. -/
structure Draft where
  fields : Fields
  output : Fields := .empty

/-- What a producer leaves: the fields of the entry, and the fields that it gives, if it gives any. -/
structure Product where
  fields : Fields
  given : Option Fields

namespace Product

/-- The output of a producer, which is empty if it gives none. -/
def output (r : Product) : Fields := r.given.getD .empty

/-- What a producer gives, as fields of an entry. -/
def supplied (r : Product) : Supplied :=
  match r.given with
  | none => .nothing
  | some f => .fields f

end Product

/-- A value as a key. -/
def Value.checkKey (k : Value) : Except Failure Unit :=
  match k.mutableType? with
  | some type => .error (.mapping (.unhashable type))
  | Option.none => .ok ()

namespace Draft

/-- Writes to the output. -/
def write (d : Draft) (key value : Value) : Except Failure Draft := do
  key.checkKey
  return { d with output := d.output.set key value }

/-- Moves a field to the output; `missing` says what becomes of the draft if it is not there. -/
def move (d : Draft) (key out : Value) (missing : Except Failure Draft) : Except Failure Draft := do
  key.checkKey
  match d.fields.get? key with
  | some v => write { d with fields := d.fields.erase key } out v
  | none => missing

/-- Runs one action. -/
def act (sight : Sight) (d : Draft) : Action → Except Failure Draft
  | .pop key out => d.move key out (.ok d)
  | .mustPop key out => d.move key out (.error (.missingKey key))
  | .put key value => do
    key.checkKey
    return { d with fields := d.fields.set key value }
  | .clear => .ok { d with fields := .empty }
  | .output key value => d.write key value
  | .level out => do d.write out (.str (← sight.level.shown))
  | .argumentCount out => d.write out (.int sight.args.length)
  | .arguments out => d.write out (.list sight.args)
  | .fieldCount out => d.write out (.int d.fields.size)
  | .fieldKeys out => d.write out (.list d.fields.keys)
  | .contextValue key out =>
    match sight.context with
    | none => .error (.noAttribute "NoneType" "value")
    | some c => do d.write out (← c.value key .none)
  | .callCount out => d.write out (.int sight.calls)
  | .raise error => .error error.raise
  | _ => .ok d

/-- Runs actions up to the end or up to one that ends the run. -/
def run (sight : Sight) (d : Draft) : List Action → Except Failure Product
  | [] => .ok ⟨d.fields, some d.output⟩
  | .giveNothing :: _ => .ok ⟨d.fields, none⟩
  | .giveFields :: _ => .ok ⟨d.fields, some d.fields⟩
  | action :: rest => do run sight (← d.act sight action) rest

variable {sight : Sight} {d d' : Draft} {r : Product} {program : List Action}

theorem run_cons {action : Action} (h : action.endsRun = false) :
    d.run sight (action :: program) = (do run sight (← d.act sight action) program) := by
  cases action <;> first | rfl | cases h

/-- An action that is run makes of the fields what it makes of any fields. -/
theorem act_fields {action : Action} (h : d.act sight action = .ok d') : d'.fields = action.onFields d.fields := by
  have hwrite : ∀ {d d' : Draft} {key value : Value}, d.write key value = .ok d' → d'.fields = d.fields := by
    intro d d' key value h
    obtain ⟨-, -, h⟩ := ok_of_bind h
    cases h
    rfl
  have hmove : ∀ {key out : Value} {missing : Except Failure Draft}, d.move key out missing = .ok d' →
      (missing = .ok d' → d' = d) → d'.fields = d.fields.erase key := by
    intro key out missing h hmissing
    obtain ⟨-, -, h⟩ := ok_of_bind h
    cases hget : d.fields.get? key with
    | none =>
      rw [hget] at h
      rw [hmissing h, Fields.erase_of_get? hget]
    | some v =>
      rw [hget] at h
      exact hwrite h
  cases action with
  | pop key out => exact hmove h fun h => by cases h; rfl
  | mustPop key out => exact hmove h nofun
  | put key value =>
    obtain ⟨-, -, h⟩ := ok_of_bind h
    cases h
    rfl
  | clear => cases h; rfl
  | level out =>
    obtain ⟨text, -, h⟩ := ok_of_bind h
    exact hwrite h
  | contextValue key out =>
    rw [act] at h
    cases hc : sight.context with
    | none =>
      rw [hc] at h
      cases h
    | some c =>
      rw [hc] at h
      obtain ⟨v, -, h⟩ := ok_of_bind h
      exact hwrite h
  | output | argumentCount | arguments | fieldCount | fieldKeys | callCount => exact hwrite h
  | raise error => cases h
  | _ => cases h; rfl

/-- The fields that a run leaves are the ones that it was given, edited by the actions that were run. -/
theorem run_fields (h : d.run sight program = .ok r) : r.fields = d.fields.edited (Action.executed program) := by
  induction program generalizing d with
  | nil => cases h; rfl
  | cons action rest ih =>
    cases hends : action.endsRun with
    | true =>
      rw [Action.executed, List.takeWhile_cons, hends]
      cases action with
      | giveNothing => cases h; rfl
      | giveFields => cases h; rfl
      | _ => cases hends
    | false =>
      rw [run_cons hends] at h
      obtain ⟨d₁, hact, hrest⟩ := ok_of_bind h
      rw [Action.executed, List.takeWhile_cons, hends, ih hrest, act_fields hact]
      rfl

end Draft

/-! ## A run in a store -/

/-- Does an action work on the fields and the output alone? -/
def Action.isLocal : Action → Bool
  | dispatch .. | configure _ | reset _ => false
  | _ => true

/-- The store with other fields in one of its mappings. -/
def Store.holding (s : Store) (m : MappingRef) (f : Fields) : Store :=
  { s with mappings := s.mappings.set m.index f }

/-- What a producer sees of an entry in a store. -/
def Store.sight (s : Store) (p : ProducerRef) (scope : Scope) : Sight where
  context := scope.context.map s.context
  level := scope.level
  args := scope.args
  calls := (s.producer p).calls

variable {s : Store} {m : MappingRef} {d : Draft} {f : Fields}

theorem Store.holding_holding (g : Fields) : (s.holding m f).holding m g = s.holding m g := by
  simp [Store.holding]

theorem Store.holding_self (hm : m.index < s.mappings.length) (hf : s.mapping m = f) : s.holding m f = s := by
  have hget : s.mappings[m.index] = f := by simpa [Store.mapping, hm] using hf
  simp [Store.holding, ← hget]

theorem Store.length_holding : (s.holding m f).mappings.length = s.mappings.length := by simp [Store.holding]

/-- A session changes one mapping of the store as a draft is changed, and gives what its output has become. Where the
draft fails it fails in the same way, and may have changed that mapping. -/
def Session.Drafts (x : Session Fields) (s : Store) (m : MappingRef) : Except Failure Draft → Prop
  | .ok d => x s = .ok d.output (s.holding m d.fields)
  | .error failure => ∃ g, x s = .error failure (s.holding m g)

namespace Produce

variable {x : Session Fields} {r : Except Failure Draft} {key value : Value}

theorem checkKey_eq (key : Value) : Session.checkKey key = Session.lift key.checkKey := by
  unfold Session.checkKey Value.checkKey
  cases key.mutableType? <;> rfl

/-- A store that holds the fields of a draft. -/
structure Holds (s : Store) (m : MappingRef) (d : Draft) : Prop where
  known : m.index < s.mappings.length
  fields : s.mapping m = d.fields

theorem Holds.edited (h : Holds s m d) (d' : Draft) : Holds (s.holding m d'.fields) m d' where
  known := Store.length_holding.symm ▸ h.known
  fields := Store.mapping_edited h.known d'.fields

/-- A value without which there is no change, and what follows from it. -/
theorem lift_drafts {α : Type} {v : Except Failure α} {y : α → Session Fields} {k : α → Except Failure Draft}
    (h : Holds s m d) (hy : ∀ a, (y a).Drafts s m (k a)) : (Session.lift v >>= y).Drafts s m (v >>= k) := by
  cases v with
  | ok a => exact hy a
  | error failure => exact ⟨d.fields, by rw [Store.holding_self h.known h.fields]; rfl⟩

/-- A change, and what follows from the store that it leaves. -/
theorem set_drafts (f : Fields) (hx : x.Drafts (s.holding m f) m r) :
    (do Session.setMapping m f; x).Drafts s m r := by
  cases r with
  | ok d =>
    have hrun : x (s.holding m f) = .ok d.output ((s.holding m f).holding m d.fields) := hx
    rw [Store.holding_holding] at hrun
    exact hrun
  | error failure =>
    obtain ⟨g, hrun⟩ := hx
    rw [Store.holding_holding] at hrun
    exact ⟨g, hrun⟩

theorem write_drafts (h : Holds s m d) (key value : Value) :
    (write d.output key value).Drafts s m (d.write key value) := by
  unfold write
  rw [checkKey_eq]
  refine lift_drafts h fun _ => ?_
  show (pure (d.output.set key value) : Session Fields) s = .ok (d.output.set key value) (s.holding m d.fields)
  rw [Store.holding_self h.known h.fields]
  rfl

theorem same_drafts (h : Holds s m d) : (pure d.output : Session Fields).Drafts s m (.ok d) := by
  show (pure d.output : Session Fields) s = .ok d.output (s.holding m d.fields)
  rw [Store.holding_self h.known h.fields]
  rfl

theorem throw_drafts (h : Holds s m d) (failure : Failure) :
    (throw failure : Session Fields).Drafts s m (.error failure) :=
  ⟨d.fields, by rw [Store.holding_self h.known h.fields]; rfl⟩

/-- The fields are at hand, as they are. -/
theorem editable_drafts (h : Holds s m d) (fault : String → Failure) {y : MappingRef × Fields → Session Fields}
    (hy : (y (m, d.fields)).Drafts s m r) : (editable (.live m) fault >>= y).Drafts s m r := by
  have hrun : (editable (.live m) fault >>= y) s = y (m, d.fields) s := by
    rw [← h.fields]
    rfl
  cases r with
  | ok d' => exact hrun.trans hy
  | error failure =>
    obtain ⟨g, hg⟩ := hy
    exact ⟨g, hrun.trans hg⟩

theorem move_drafts (h : Holds s m d) (fault : String → Failure) (key out : Value) {missing : Session Fields}
    (hmissing : missing.Drafts s m r) :
    (move (.live m) fault key out d.output missing).Drafts s m (d.move key out r) := by
  unfold move
  refine editable_drafts h fault ?_
  dsimp only
  rw [checkKey_eq]
  refine lift_drafts h fun _ => ?_
  cases d.fields.get? key with
  | none => exact hmissing
  | some v =>
    have herased := h.edited { d with fields := d.fields.erase key }
    exact set_drafts _ (write_drafts herased out v)

/-- One action in a store is that action on the draft. -/
theorem act_drafts {nested : Call → Session Unit} {p : ProducerRef} {scope : Scope} {action : Action}
    (h : Holds s m d) (hf : scope.fields = .live m) (hl : action.isLocal) :
    (act nested p scope d.output action).Drafts s m (d.act (s.sight p scope) action) := by
  cases action with
  | pop key out =>
    rw [act, hf]
    exact move_drafts h _ key out (same_drafts h)
  | mustPop key out =>
    rw [act, hf]
    exact move_drafts h _ key out (throw_drafts h _)
  | put key value =>
    rw [act, hf]
    refine editable_drafts h _ ?_
    dsimp only
    rw [checkKey_eq]
    refine lift_drafts h fun _ => ?_
    have hset := h.edited { d with fields := d.fields.set key value }
    exact set_drafts _ (same_drafts hset)
  | clear =>
    rw [act, hf]
    refine editable_drafts h _ ?_
    have hcleared := h.edited { d with fields := .empty }
    exact set_drafts _ (same_drafts hcleared)
  | output key value => exact write_drafts h key value
  | level out => exact lift_drafts h fun text => write_drafts h out (.str text)
  | argumentCount out => exact write_drafts h out _
  | arguments out => exact write_drafts h out _
  | fieldCount out =>
    rw [act, hf]
    exact editable_drafts h _ (write_drafts h out _)
  | fieldKeys out =>
    rw [act, hf]
    exact editable_drafts h _ (write_drafts h out _)
  | contextValue key out =>
    rw [act, Draft.act, Store.sight]
    cases scope.context with
    | none => exact throw_drafts h _
    | some c => exact lift_drafts h fun v => write_drafts h out v
  | callCount out => exact write_drafts h out _
  | raise error => exact throw_drafts h _
  | dispatch => cases hl
  | configure => cases hl
  | reset => cases hl
  | giveNothing => exact same_drafts h
  | giveFields => exact same_drafts h

theorem run_cons {nested : Call → Session Unit} {p : ProducerRef} {scope : Scope} {output : Fields} {action : Action}
    {rest : List Action} (h : action.endsRun = false) :
    run nested p scope output (action :: rest) =
      (do let output ← act nested p scope output action; run nested p scope output rest) := by
  cases action <;> first | rfl | cases h

/-- A run in a store is that run on the draft: where it comes to its end it leaves the edited fields in their mapping
and gives what is given, in a store that has at most more mappings. -/
theorem run_drafts (nested : Call → Session Unit) (p : ProducerRef) {scope : Scope} {program : List Action}
    (h : Holds s m d) (hf : scope.fields = .live m) (hl : ∀ action ∈ program, action.isLocal) :
    match d.run (s.sight p scope) program with
    | .ok product => ∃ given s', run nested p scope d.output program s = .ok given s' ∧
        (s.holding m product.fields).Allots s' ∧ s'.supplied given = product.supplied
    | .error failure => ∃ g, run nested p scope d.output program s = .error failure (s.holding m g) := by
  induction program generalizing s d with
  | nil =>
    refine ⟨.live ⟨s.mappings.length⟩, { s with mappings := s.mappings ++ [d.output] }, rfl, ?_, ?_⟩
    · rw [Store.holding_self h.known h.fields]
      exact ⟨[d.output], rfl⟩
    · exact congrArg Supplied.fields (Store.mapping_allotted s d.output)
  | cons action rest ih =>
    obtain ⟨hfirst, hrest⟩ := List.forall_mem_cons.1 hl
    cases hends : action.endsRun with
    | true =>
      cases action with
      | giveNothing =>
        refine ⟨.nothing, s, rfl, ?_, rfl⟩
        rw [Store.holding_self h.known h.fields]
        exact .refl s
      | giveFields =>
        refine ⟨scope.fields, s, rfl, ?_, ?_⟩
        · rw [Store.holding_self h.known h.fields]
          exact .refl s
        · rw [hf]
          exact congrArg Supplied.fields h.fields
      | _ => cases hends
    | false =>
      have hact : (act nested p scope d.output action).Drafts s m (d.act (s.sight p scope) action) :=
        act_drafts h hf hfirst
      rw [run_cons hends, Draft.run_cons hends]
      cases hd : d.act (s.sight p scope) action with
      | error failure =>
        rw [hd] at hact
        obtain ⟨g, hg⟩ := hact
        exact ⟨g, Session.run_bind_error hg⟩
      | ok d' =>
        rw [hd] at hact
        -- What the producer sees of the entry has not changed.
        have hsight : (s.holding m d'.fields).sight p scope = s.sight p scope := rfl
        have hrun := ih (h.edited d') hrest
        simp only [hsight, Store.holding_holding] at hrun
        have hthen : (act nested p scope d.output action >>= fun out => run nested p scope out rest) s =
            run nested p scope d'.output rest (s.holding m d'.fields) := Session.run_bind_ok hact
        simp only [hthen]
        exact hrun

end Produce

end ContextLog
