import ContextLog.Store.Basic
/-!
# What a session does to the store

A session ends with a result or a failure, and with a store either way. `x.Yields s I Q` says that
from the store `s` it ends in a store with `I`, and that a result has `Q` together with that store;
`x.Keeps I` says that from every store with `I` it ends in one with `I`. Both are put together along
the text of a session: `Yields.bind` and `Keeps.bind` are the rules for one part after the other.
-/

namespace ContextLog.Session

variable {α β : Type} {x : Session α} {f : α → Session β} {s s' : Store} {I J : Store → Prop}
  {Q : α → Store → Prop} {R : β → Store → Prop}

/-! ## Running -/

theorem run_bind_ok {a : α} (h : x s = .ok a s') : (x >>= f) s = f a s' := by
  simp only [bind, EStateM.bind, h]

theorem run_bind_error {e : Failure} (h : x s = .error e s') : (x >>= f) s = .error e s' := by
  simp only [bind, EStateM.bind, h]

/-- A session that returns a value of no interest and then goes on. -/
theorem run_seq_ok {x : Session Unit} {y : Session β} (h : x s = .ok () s') :
    (do x; y) s = y s' := run_bind_ok h

@[simp] theorem run_pure (a : α) : (pure a : Session α) s = .ok a s := rfl

@[simp] theorem run_throw (e : Failure) : (throw e : Session α) s = .error e s := rfl

@[simp] theorem run_get : (get : Session Store) s = .ok s s := rfl

@[simp] theorem run_modify (g : Store → Store) : (modify g : Session Unit) s = .ok () (g s) := rfl

@[simp] theorem run_lift_ok (a : α) : lift (.ok a) s = .ok a s := rfl

@[simp] theorem run_lift_error (e : Failure) : (lift (.error e) : Session α) s = .error e s := rfl

/-- The store that a session ends in. -/
def leaves (x : Session α) (s : Store) : Store :=
  match x s with
  | .ok _ s' => s'
  | .error _ s' => s'

theorem leaves_ok {a : α} (h : x s = .ok a s') : x.leaves s = s' := by
  simp only [leaves, h]

theorem leaves_error {e : Failure} (h : x s = .error e s') : x.leaves s = s' := by
  simp only [leaves, h]

/-- How a session ends from a store. -/
def outcome (x : Session α) (s : Store) : Except Failure α :=
  match x s with
  | .ok a _ => .ok a
  | .error e _ => .error e

theorem outcome_ok {a : α} (h : x s = .ok a s') : x.outcome s = .ok a := by
  simp only [outcome, h]

theorem outcome_error {e : Failure} (h : x s = .error e s') : x.outcome s = .error e := by
  simp only [outcome, h]

theorem leaves_congr {y : Session α} (h : x s = y s') : x.leaves s = y.leaves s' := by
  simp only [leaves, h]

theorem outcome_congr {y : Session α} (h : x s = y s') : x.outcome s = y.outcome s' := by
  simp only [outcome, h]

/-! ## Results and failures -/

/-- Every result of the session has `P`. -/
def Gives (x : Session α) (P : α → Prop) : Prop := ∀ s a s', x s = .ok a s' → P a

/-- Every failure of the session has `E`. -/
def Fails (x : Session α) (E : Failure → Prop) : Prop := ∀ s f s', x s = .error f s' → E f

variable {P : α → Prop} {P' : β → Prop} {E : Failure → Prop}

theorem bind_ok {b : β} (h : (x >>= f) s = .ok b s') : ∃ a s₁, x s = .ok a s₁ ∧ f a s₁ = .ok b s' := by
  cases hx : x s with
  | ok a s₁ => exact ⟨a, s₁, rfl, by rwa [run_bind_ok hx] at h⟩
  | error e s₁ => rw [run_bind_error hx] at h; cases h

theorem bind_error {e : Failure} (h : (x >>= f) s = .error e s') :
    x s = .error e s' ∨ ∃ a s₁, x s = .ok a s₁ ∧ f a s₁ = .error e s' := by
  cases hx : x s with
  | ok a s₁ => exact .inr ⟨a, s₁, rfl, by rwa [run_bind_ok hx] at h⟩
  | error e' s₁ => rw [run_bind_error hx] at h; cases h; exact .inl rfl

/-- Only the last part of a session gives its result. -/
theorem Gives.seq (hf : ∀ a, (f a).Gives P') : (x >>= f).Gives P' := by
  intro s b s' h
  obtain ⟨a, s₁, -, hb⟩ := bind_ok h
  exact hf a s₁ b s' hb

theorem Gives.pure {a : α} (h : P a) : (pure a : Session α).Gives P := by
  intro s b s' hb
  rw [run_pure] at hb
  cases hb
  exact h

theorem Gives.throw (e : Failure) : (throw e : Session α).Gives P := by
  intro s b s' hb
  rw [run_throw] at hb
  cases hb

theorem Fails.bind (hx : x.Fails E) (hf : ∀ a, (f a).Fails E) : (x >>= f).Fails E := by
  intro s e s' h
  rcases bind_error h with h | ⟨a, s₁, -, h⟩
  · exact hx s e s' h
  · exact hf a s₁ e s' h

theorem Fails.pure (a : α) : (pure a : Session α).Fails E := by
  intro s e s' h
  rw [run_pure] at h
  cases h

theorem Fails.throw {e : Failure} (h : E e) : (throw e : Session α).Fails E := by
  intro s e' s' he
  rw [run_throw] at he
  cases he
  exact h

theorem Fails.get : (get : Session Store).Fails E := by
  intro s e s' h
  rw [run_get] at h
  cases h

theorem Fails.modify (g : Store → Store) : (modify g : Session Unit).Fails E := by
  intro s e s' h
  rw [run_modify] at h
  cases h

theorem Fails.lift {r : Except Failure α} (h : ∀ e, r = .error e → E e) : (lift r).Fails E := by
  cases r with
  | ok a => exact .pure a
  | error e => exact .throw (h e rfl)

/-! ## Results and the stores they come with -/

/-- From `s` the session ends in a store with `I`, and a result has `Q` there. -/
def Yields (x : Session α) (s : Store) (I : Store → Prop) (Q : α → Store → Prop) : Prop :=
  match x s with
  | .ok a s' => I s' ∧ Q a s'
  | .error _ s' => I s'

theorem Yields.ok {a : α} (h : x.Yields s I Q) (hx : x s = .ok a s') : I s' ∧ Q a s' := by
  simpa only [Yields, hx] using h

theorem Yields.leaves (h : x.Yields s I Q) : I (x.leaves s) := by
  unfold Yields at h
  unfold Session.leaves
  cases hx : x s with
  | ok a s' => rw [hx] at h; exact h.1
  | error e s' => rw [hx] at h; exact h

theorem Yields.of_leaves (h : I (x.leaves s)) : x.Yields s I fun _ _ => True := by
  unfold Session.leaves at h
  unfold Yields
  cases hx : x s with
  | ok a s' => rw [hx] at h; exact ⟨h, trivial⟩
  | error e s' => rw [hx] at h; exact h

/-- A result may have more than what the rules for its parts say. -/
theorem Yields.of_ok {P : α → Store → Prop} (h : x.Yields s I Q) (hP : ∀ a s', x s = .ok a s' → P a s') :
    x.Yields s I P := by
  unfold Yields at h ⊢
  cases hx : x s with
  | ok a s' => rw [hx] at h; exact ⟨h.1, hP a s' hx⟩
  | error e s' => rw [hx] at h; exact h

theorem Yields.error {e : Failure} (h : x.Yields s I Q) (hx : x s = .error e s') : I s' := by
  simpa only [Yields, hx] using h

theorem Yields.mono {P : α → Store → Prop} (h : x.Yields s I Q)
    (hJ : ∀ s', I s' → J s') (hQ : ∀ a s', I s' → Q a s' → P a s') : x.Yields s J P := by
  unfold Yields at h ⊢
  cases hx : x s with
  | ok a s' => rw [hx] at h; exact ⟨hJ _ h.1, hQ _ _ h.1 h.2⟩
  | error e s' => rw [hx] at h; exact hJ _ h

/-- A part of a session after another one. -/
theorem Yields.bind (hx : x.Yields s I Q) (hf : ∀ a s', I s' → Q a s' → (f a).Yields s' I R) :
    (x >>= f).Yields s I R := by
  unfold Yields at hx
  cases h : x s with
  | ok a s' =>
    rw [h] at hx
    simpa only [Yields, run_bind_ok h] using hf a s' hx.1 hx.2
  | error e s' =>
    rw [h] at hx
    simpa only [Yields, run_bind_error h] using hx

theorem Yields.lift {r : Except Failure α} (h : I s) (hQ : ∀ a, r = .ok a → Q a s) :
    (lift r).Yields s I Q := by
  cases r with
  | ok a => exact ⟨h, hQ a rfl⟩
  | error e => exact h

/-- A result that was computed without the store, and what follows from it. -/
theorem Yields.lift_bind {r : Except Failure α} (hs : I s)
    (h : ∀ a, r = .ok a → (f a).Yields s I R) : (Session.lift r >>= f).Yields s I R := by
  cases r with
  | ok a => exact h a rfl
  | error e => exact hs

/-- Looking at the store changes nothing, so what follows starts from the store that was seen. -/
theorem Yields.get {f : Store → Session β} (h : (f s).Yields s I R) :
    ((get : Session Store) >>= f).Yields s I R := h

theorem Yields.modify {g : Store → Store} {f : Unit → Session β} (h : (f ()).Yields (g s) I R) :
    ((modify g : Session Unit) >>= f).Yields s I R := h

/-! ## What a session keeps -/

/-- From every store with `I` the session ends in one with `I`. -/
def Keeps (I : Store → Prop) (x : Session α) : Prop := ∀ s, I s → x.Yields s I fun _ _ => True

theorem Keeps.leaves (h : x.Keeps I) (hs : I s) : I (x.leaves s) := (h s hs).leaves

theorem Yields.keeps {P : Store → α → Store → Prop} (h : ∀ s, I s → x.Yields s I (P s)) :
    x.Keeps I := fun s hs => (h s hs).mono (fun _ h => h) fun _ _ _ _ => trivial

/-- A session that keeps whatever holds leaves the store as it is. -/
theorem eq_of_keeps (h : ∀ I, x.Keeps I) {a : α} (hx : x s = .ok a s') : s' = s :=
  ((h (· = s) s rfl).ok hx).1

theorem Keeps.bind (hx : x.Keeps I) (hf : ∀ a, (f a).Keeps I) : (x >>= f).Keeps I := fun s hs =>
  (hx s hs).bind fun a s' hs' _ => hf a s' hs'

theorem Keeps.pure (a : α) : (pure a : Session α).Keeps I := fun _ h => ⟨h, trivial⟩

theorem Keeps.throw (e : Failure) : (throw e : Session α).Keeps I := fun _ h => h

theorem Keeps.lift (r : Except Failure α) : (lift r).Keeps I := fun _ h =>
  .lift h fun _ _ => trivial

theorem Keeps.get {f : Store → Session β} (h : ∀ s, I s → (f s).Yields s I fun _ _ => True) :
    ((get : Session Store) >>= f).Keeps I := fun s hs => h s hs

end ContextLog.Session
