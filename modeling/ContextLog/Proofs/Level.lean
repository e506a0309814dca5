import ContextLog.Level.Coerce
/-!
# Which values are levels

A value is taken for a level if it is the same key as that level, so a whole number, the equal double
and the equal truth value are one level. Any other value is refused by an error of value, also if it
cannot even be shown.
-/

namespace ContextLog

namespace Level

theorem ofRank?_eq_some_iff {n : Int} {l : Level} : ofRank? n = some l ↔ n = l.rank :=
  ⟨rank_of_ofRank?, fun h => h ▸ ofRank?_rank l⟩

theorem not_lt {a b : Level} : ¬ a < b ↔ b ≤ a := Nat.not_lt

end Level

namespace Value

/-- A value is a level exactly if it is the same key as that level. -/
theorem level?_eq_some_iff {v : Value} {l : Level} : v.level? = some l ↔ v.SameKey (.level l) := by
  cases v with
  | bool b => simp [level?, quantity?, SameKey, keyForm, Level.ofRank?_eq_some_iff]
  | int n => simp [level?, quantity?, SameKey, keyForm, Level.ofRank?_eq_some_iff]
  | level k => simp [level?, quantity?, SameKey, keyForm, Level.ofRank?_eq_some_iff]
  | float x =>
    cases h : x.toInt? <;>
      simp [level?, quantity?, SameKey, keyForm, h, Level.ofRank?_eq_some_iff]
  | _ => simp [level?, quantity?, SameKey, keyForm]

theorem wholeText_error {n : Int} {f : Failure} (h : wholeText n = .error f) : f = .numeralTooLong := by
  unfold wholeText at h
  dsimp only at h
  split at h
  · exact (Except.error.inj h).symm
  · cases h

mutual

/-- The only value without a representation is a whole number with too many digits, or one that
holds such a number. -/
theorem repr_error : ∀ (v : Value) {f : Failure}, v.repr = .error f → f = .numeralTooLong
  | .int n, _, h => wholeText_error (by simpa only [repr] using h)
  | .list items, f, h => by
    simp only [repr] at h
    cases hi : repr.reprItems items with
    | ok ts => rw [hi] at h; cases h
    | error e => rw [hi] at h; cases h; exact reprItems_error items hi
  | .tuple items, f, h => by
    simp only [repr] at h
    cases hi : repr.reprItems items with
    | ok ts => rw [hi] at h; cases h
    | error e => rw [hi] at h; cases h; exact reprItems_error items hi
  | .dict entries, f, h => by
    simp only [repr] at h
    cases hi : repr.reprEntries entries with
    | ok ts => rw [hi] at h; cases h
    | error e => rw [hi] at h; cases h; exact reprEntries_error entries hi
  | .record _ members, f, h => by
    simp only [repr] at h
    cases hi : repr.reprMembers members with
    | ok ts => rw [hi] at h; cases h
    | error e => rw [hi] at h; cases h; exact reprMembers_error members hi
  | .error _ _ args _, f, h => by
    simp only [repr] at h
    cases hi : repr.reprItems args with
    | ok ts => rw [hi] at h; simp only [bind, Except.bind] at h; split at h <;> cases h
    | error e => rw [hi] at h; cases h; exact reprItems_error args hi
  | .none, _, h | .bool _, _, h | .float _, _, h | .text _, _, h | .bytes _, _, h | .level _, _, h
  | .object _, _, h | .explosive _ _ _ _, _, h => by simp only [repr] at h; cases h

theorem reprItems_error : ∀ (vs : List Value) {f : Failure},
    repr.reprItems vs = .error f → f = .numeralTooLong
  | [], _, h => by simp only [repr.reprItems] at h; cases h
  | v :: rest, f, h => by
    simp only [repr.reprItems] at h
    cases hv : v.repr with
    | error e => rw [hv] at h; cases h; exact repr_error v hv
    | ok t =>
      cases hr : repr.reprItems rest with
      | ok ts => rw [hv, hr] at h; cases h
      | error e => rw [hv, hr] at h; cases h; exact reprItems_error rest hr

theorem reprEntries_error : ∀ (es : List (Value × Value)) {f : Failure},
    repr.reprEntries es = .error f → f = .numeralTooLong
  | [], _, h => by simp only [repr.reprEntries] at h; cases h
  | (k, v) :: rest, f, h => by
    simp only [repr.reprEntries] at h
    cases hk : k.repr with
    | error e => rw [hk] at h; cases h; exact repr_error k hk
    | ok t =>
      cases hv : v.repr with
      | error e => rw [hk, hv] at h; cases h; exact repr_error v hv
      | ok u =>
        cases hr : repr.reprEntries rest with
        | ok ts => rw [hk, hv, hr] at h; cases h
        | error e => rw [hk, hv, hr] at h; cases h; exact reprEntries_error rest hr

theorem reprMembers_error : ∀ (ms : List (String × Value)) {f : Failure},
    repr.reprMembers ms = .error f → f = .numeralTooLong
  | [], _, h => by simp only [repr.reprMembers] at h; cases h
  | (_, v) :: rest, f, h => by
    simp only [repr.reprMembers] at h
    cases hv : v.repr with
    | error e => rw [hv] at h; cases h; exact repr_error v hv
    | ok t =>
      cases hr : repr.reprMembers rest with
      | ok ts => rw [hv, hr] at h; cases h
      | error e => rw [hv, hr] at h; cases h; exact reprMembers_error rest hr

end

end Value

namespace Level

theorem ofValue_of_sameKey {v : Value} {l : Level} (h : v.SameKey (.level l)) : ofValue v = .ok l := by
  unfold ofValue
  rw [Value.level?_eq_some_iff.2 h]

theorem sameKey_of_ofValue {v : Value} {l : Level} (h : ofValue v = .ok l) : v.SameKey (.level l) := by
  unfold ofValue at h
  cases hv : v.level? with
  | some l' =>
    rw [hv] at h
    cases h
    exact Value.level?_eq_some_iff.1 hv
  | none =>
    rw [hv] at h
    cases hr : v.repr with
    | ok t => rw [hr] at h; cases h
    | error f => rw [hr] at h; cases h

/-- A value that equals no level is refused as a value. -/
theorem ofValue_error {v : Value} (h : ∀ l : Level, ¬ v.SameKey (.level l)) :
    ∃ f, ofValue v = .error f ∧ f.kind = .value := by
  have hn : v.level? = none := Option.eq_none_iff_forall_ne_some.2 fun l hl =>
    h l (Value.level?_eq_some_iff.1 hl)
  unfold ofValue
  rw [hn]
  cases hr : v.repr with
  | ok t => exact ⟨.notALevel t, rfl, rfl⟩
  | error f =>
    have hf := Value.repr_error v hr
    exact ⟨f, rfl, hf ▸ rfl⟩

end Level

end ContextLog
