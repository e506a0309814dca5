import ContextLog.Message
import ContextLog.Proofs.Level
import ContextLog.Proofs.Settings
/-!
# How a template fails to be filled

Three things can go wrong when arguments are put into a template. They do not fit it, and formatting recovers from
that (`Failure.IsRecoverable`); one of them cannot be shown; or a size is beyond what can be written: an argument is
an infinity or a whole number outside the range of characters, or the template asks for more digits than a whole number
may have (`Excess`). `fillPieces_error` says that there is nothing else.
-/

namespace ContextLog

variable {f : Failure} {v : Value} {args rest : List Value} {conversion : Char} {i : Nat}

/-- Formatting recovers from the failure: it is one of type or of value, and its own text can be had. -/
def Failure.IsRecoverable (f : Failure) : Prop := f.isMismatch = true ∧ ∃ error, f.message = .ok error

/-- A number is beyond the range of its conversion. -/
def Failure.IsExcess (f : Failure) : Prop := ∃ fault : Template.Fault, f = .template fault ∧ fault.kind = .overflow

/-- Formatting does not recover from a size. -/
theorem Failure.IsExcess.isMismatch (h : f.IsExcess) : f.isMismatch = false := by
  obtain ⟨fault, rfl, hkind⟩ := h
  simp only [Failure.isMismatch, kind, hkind]
  rfl

theorem Failure.numeralTooLong_isRecoverable : numeralTooLong.IsRecoverable := ⟨rfl, _, rfl⟩

/-- A failure of an argument's type or of a template's own value. -/
theorem Template.Fault.isRecoverable {fault : Fault} (h : fault.kind = .type ∨ fault.kind = .value) :
    (Failure.template fault).IsRecoverable := by
  refine ⟨?_, _, rfl⟩
  rcases h with h | h <;> simp only [Failure.isMismatch, Failure.kind, h] <;> rfl

theorem Template.Fault.isExcess {fault : Fault} (h : fault.kind = .overflow) : (Failure.template fault).IsExcess :=
  ⟨fault, rfl, h⟩

/-- An infinity, or a whole number that is none of a character. -/
def Value.IsExtreme (v : Value) : Prop :=
  (∃ negative, v = .float (.infinity negative)) ∨ ∃ n, v.index? = some n ∧ (n < 0 ∨ 0x10ffff < n)

theorem Value.index?_of_whole? {n : Int} (h : v.whole? = some n) : v.index? = some n := by
  cases v <;> first | exact h | cases h

theorem Binary64.ofParts_ne_infinity {e : Int} (h : e ≤ 970) (sign negative : Bool) (significand : Nat) :
    ofParts sign significand e ≠ .infinity negative := by
  unfold ofParts
  by_cases htop : significand = Decimal.twoTo 53
  · have hle : ¬ 971 < e + 1 := by omega
    simp [htop, hle]
  · have hle : ¬ 971 < e := by omega
    simp [htop, hle]

/-- A whole number beyond all doubles is beyond all characters. -/
theorem Binary64.beyond_of_ofInt {n : Int} {negative : Bool} (h : ofInt n = .infinity negative) :
    n < 0 ∨ 0x10ffff < n := by
  by_cases hn : n < 0 ∨ 0x10ffff < n
  · exact hn
  · have hnum : n.natAbs < 2 ^ 21 := Nat.lt_of_le_of_lt (by omega : n.natAbs ≤ 1114111) (by decide)
    have hlog : n.natAbs.log2 < 21 := by
      by_cases hzero : n.natAbs = 0
      · rw [hzero]
        decide
      · exact (Nat.log2_lt hzero).2 hnum
    have hunit : unitExponent n.natAbs 1 ≤ 970 := by
      have hone : Nat.log2 1 = 0 := by decide
      unfold unitExponent
      rw [hone]
      dsimp only
      split <;> omega
    unfold ofInt ofRatio at h
    split at h
    · cases h
    · exact absurd h (ofParts_ne_infinity hunit _ _ _)

namespace Template

variable {d : Directive} {s shape : Shape} {p : Piece} {ps : List Piece}

/-! ## Directives that cannot be read -/

/-- A piece that can be read, or that formatting recovers from. -/
def Piece.Recovers : Piece → Prop
  | .broken _ fault => (Failure.template fault).IsRecoverable
  | _ => True

/-- Whatever piece a step completes, formatting recovers from it. -/
def Step.Recovers (s : Step) : Prop := ∀ p ∈ s.1, p.Recovers

theorem recovers_none (next : Stage) : Step.Recovers (none, next) := by
  intro p hp
  cases hp

theorem fail_recovers {fault : Fault} (h : fault.kind = .type ∨ fault.kind = .value) (d : Directive) :
    (fail d fault).Recovers := by
  rintro p ⟨⟩
  exact Fault.isRecoverable h

theorem finish_recovers (d : Directive) (i : Nat) (c : Char) : (finish d i c).Recovers := by
  rintro p ⟨⟩
  trivial

theorem afterPrecision_recovers (d : Directive) (i : Nat) (c : Char) : (afterPrecision d i c).Recovers := by
  unfold afterPrecision
  split
  · exact recovers_none _
  · exact finish_recovers d i c

theorem afterWidth_recovers (d : Directive) (i : Nat) (c : Char) : (afterWidth d i c).Recovers := by
  unfold afterWidth
  split
  · exact recovers_none _
  · exact afterPrecision_recovers d i c

theorem widthDigit_recovers (d : Directive) (n : Nat) (c : Char) : (widthDigit d n c).Recovers := by
  unfold widthDigit
  dsimp only
  split
  · exact fail_recovers (.inr rfl) d
  · exact recovers_none _

theorem precisionDigit_recovers (d : Directive) (n : Nat) (c : Char) : (precisionDigit d n c).Recovers := by
  unfold precisionDigit
  dsimp only
  split
  · exact fail_recovers (.inr rfl) d
  · exact recovers_none _

theorem afterFlag_recovers (d : Directive) (i : Nat) (c : Char) : (afterFlag d i c).Recovers := by
  unfold afterFlag
  split
  · exact recovers_none _
  · split
    · exact recovers_none _
    · split
      · exact widthDigit_recovers d 0 c
      · exact afterWidth_recovers d i c

theorem step_recovers (stage : Stage) (i : Nat) (c : Char) : (stage.step i c).Recovers := by
  unfold Stage.step
  cases stage with
  | text =>
    dsimp only
    split
    · exact recovers_none _
    · rintro p ⟨⟩
      trivial
  | opened =>
    dsimp only
    split
    · rintro p ⟨⟩
      trivial
    · split
      · exact fail_recovers (.inl rfl) _
      · exact afterFlag_recovers _ i c
  | flags d => exact afterFlag_recovers d i c
  | width d n =>
    dsimp only
    split
    · exact widthDigit_recovers d n c
    · exact afterWidth_recovers d i c
  | widthDone d => exact afterWidth_recovers d i c
  | point d =>
    dsimp only
    split
    · exact recovers_none _
    · split
      · exact precisionDigit_recovers d 0 c
      · exact afterPrecision_recovers d i c
  | precision d n =>
    dsimp only
    split
    · exact precisionDigit_recovers d n c
    · exact afterPrecision_recovers d i c
  | precisionDone d => exact afterPrecision_recovers d i c
  | modifier d => exact finish_recovers d i c

theorem atEnd_recovers (stage : Stage) : ∀ p ∈ stage.atEnd, p.Recovers := by
  intro p hp
  unfold Stage.atEnd at hp
  cases stage with
  | text => cases hp
  | _ =>
    rw [List.mem_singleton.1 hp]
    exact Fault.isRecoverable (.inr rfl)

theorem scan_recovers (stage : Stage) (i : Nat) (cs : List Char) : ∀ p ∈ scan stage i cs, p.Recovers := by
  induction cs generalizing stage i with
  | nil => exact atEnd_recovers stage
  | cons c rest ih =>
    intro p hp
    rcases List.mem_append.1 hp with hp | hp
    · exact step_recovers stage i c p (Option.mem_toList.1 hp)
    · exact ih _ _ p hp

/-! ## Reading arguments -/

theorem wholeOf_error (h : wholeOf conversion v = .error f) :
    f.IsRecoverable ∨ f.IsExcess ∧ v.IsExtreme := by
  unfold wholeOf at h
  split at h <;> cases h
  · exact .inl (Fault.isRecoverable (.inr rfl))
  · exact .inr ⟨Fault.isExcess rfl, .inl ⟨_, rfl⟩⟩
  · exact .inl (Fault.isRecoverable (.inl rfl))

theorem indexOf_error (h : indexOf conversion v = .error f) : f.IsRecoverable := by
  unfold indexOf at h
  split at h <;> cases h
  exact Fault.isRecoverable (.inl rfl)

theorem doubleOf_error (h : doubleOf v = .error f) : f.IsRecoverable ∨ f.IsExcess ∧ v.IsExtreme := by
  unfold doubleOf at h
  split at h
  · cases h
  · rename_i n _ hindex
    split at h <;> cases h
    rename_i hinfinite
    exact .inr ⟨Fault.isExcess rfl, .inr ⟨n, hindex, Binary64.beyond_of_ofInt hinfinite⟩⟩
  · cases h
  · cases h
    exact .inl (Fault.isRecoverable (.inl rfl))

theorem characterOf_error (h : characterOf v = .error f) : f.IsRecoverable ∨ f.IsExcess ∧ v.IsExtreme := by
  unfold characterOf at h
  split at h
  · split at h <;> cases h
    exact .inl (Fault.isRecoverable (.inl rfl))
  · rename_i n _ hindex
    split at h <;> cases h
    exact .inr ⟨Fault.isExcess rfl, .inr ⟨n, hindex, ‹_›⟩⟩
  · cases h
    exact .inl (Fault.isRecoverable (.inl rfl))

/-! ## Writing one argument -/

/-- The precision is more than the digits that a whole number can be asked for. -/
def Shape.IsVast (s : Shape) : Prop := ∃ n, s.precision = some n ∧ wholeDigitsLimit < n

theorem Shape.isVast_of_getD (h : wholeDigitsLimit < s.precision.getD 0) : s.IsVast := by
  cases hp : s.precision with
  | none =>
    rw [hp, Option.getD_none] at h
    omega
  | some n =>
    rw [hp, Option.getD_some] at h
    exact ⟨n, hp, h⟩

theorem whole_error {base : Nat} {mark : List Char} {capital : Bool} {n : Int}
    (h : s.whole base mark capital n = .error f) : f.IsExcess ∧ s.IsVast := by
  unfold Shape.whole at h
  dsimp only at h
  split at h <;> cases h
  exact ⟨Fault.isExcess rfl, Shape.isVast_of_getD ‹_›⟩

/-- What is not read from a text is read from something else. -/
theorem isText_of_read {α : Type} {read : Value → Except Failure α} {x : α}
    (hread : ∀ t, ∃ f, read (.text t) = .error f) (h : read v = .ok x) : v.isText = false := by
  cases v with
  | text t =>
    obtain ⟨f, hf⟩ := hread t
    cases h.symm.trans hf
  | _ => rfl

/-- A whole number that is read from an argument is not written only if the precision is too great. -/
theorem whole_unwritten {read : Value → Except Failure Int} {base : Nat} {mark : List Char} {capital : Bool} {n : Int}
    (hread : ∀ t, ∃ f, read (.text t) = .error f) (hn : read v = .ok n)
    (h : s.whole base mark capital n = .error f) : f.IsExcess ∧ (v.IsExtreme ∨ v.isText = false ∧ s.IsVast) := by
  obtain ⟨hf, hvast⟩ := whole_error h
  exact ⟨hf, .inr ⟨isText_of_read hread hn, hvast⟩⟩

/-- What a conversion does not write: it is not for such an argument, the argument cannot be shown, or a size is too
great. -/
theorem write_error (h : s.write conversion i v = .error f) :
    f.IsRecoverable ∨ v.shown = .error f ∨ f.IsExcess ∧ (v.IsExtreme ∨ v.isText = false ∧ s.IsVast) := by
  unfold Shape.write at h
  cases hc : Conversion.ofChar? conversion with
  | none =>
    rw [hc] at h
    cases h
    exact .inl (Fault.isRecoverable (.inr rfl))
  | some kind =>
    rw [hc] at h
    cases kind with
    | shown =>
      rcases error_of_bind h with h | ⟨text, -, h⟩
      · exact .inr (.inl h)
      · cases h
    | representation plain =>
      rcases error_of_bind h with h | ⟨text, -, h⟩
      · exact .inl (v.repr_error h ▸ Failure.numeralTooLong_isRecoverable)
      · cases h
    | character =>
      rcases error_of_bind h with h | ⟨c, -, h⟩
      · exact (characterOf_error h).imp_right fun ⟨hf, hv⟩ => .inr ⟨hf, .inl hv⟩
      · cases h
    | decimal =>
      rcases error_of_bind h with h | ⟨n, hn, h⟩
      · exact (wholeOf_error h).imp_right fun ⟨hf, hv⟩ => .inr ⟨hf, .inl hv⟩
      · rcases error_of_bind h with h | ⟨digits, -, h⟩
        · exact .inr (.inr (whole_unwritten (fun t => ⟨_, rfl⟩) hn h))
        · rcases error_of_bind h with h | ⟨text, -, h⟩
          · exact .inl (Value.wholeText_error h ▸ Failure.numeralTooLong_isRecoverable)
          · cases h
    | octal =>
      rcases error_of_bind h with h | ⟨n, hn, h⟩
      · exact .inl (indexOf_error h)
      · exact .inr (.inr (whole_unwritten (fun t => ⟨_, rfl⟩) hn h))
    | hexadecimal capital =>
      rcases error_of_bind h with h | ⟨n, hn, h⟩
      · exact .inl (indexOf_error h)
      · exact .inr (.inr (whole_unwritten (fun t => ⟨_, rfl⟩) hn h))
    | double layout capital =>
      rcases error_of_bind h with h | ⟨x, hx, h⟩
      · exact (doubleOf_error h).imp_right fun ⟨hf, hv⟩ => .inr ⟨hf, .inl hv⟩
      · cases h

/-! ## Open sizes -/

theorem nextWhole_error (h : nextWhole args = .error f) : f.IsRecoverable := by
  unfold nextWhole at h
  split at h
  · cases h
    exact Fault.isRecoverable (.inl rfl)
  · split at h <;> cases h
    exact Fault.isRecoverable (.inl rfl)

theorem nextWhole_ok {n : Int} (h : nextWhole args = .ok (n, rest)) :
    ∃ v, args = v :: rest ∧ v.index? = some n := by
  unfold nextWhole at h
  split at h
  · cases h
  · split at h <;> cases h
    exact ⟨_, rfl, Value.index?_of_whole? ‹_›⟩

theorem settleWidth_error (h : d.settleWidth args = .error f) :
    f.IsRecoverable ∨ f.IsExcess ∧ ∃ v ∈ args, v.IsExtreme := by
  unfold Directive.settleWidth at h
  split at h
  · cases h
  · cases h
  · rcases error_of_bind h with hnext | ⟨⟨n, rest⟩, hnext, hwidth⟩
    · exact .inl (nextWhole_error hnext)
    · obtain ⟨v, rfl, hv⟩ := nextWhole_ok hnext
      dsimp only at hwidth
      split at hwidth <;> cases hwidth
      rename_i hrange
      unfold widthLimit at hrange
      exact .inr ⟨Fault.isExcess rfl, v, List.mem_cons_self, .inr ⟨n, hv, by omega⟩⟩

theorem settlePrecision_error (h : d.settlePrecision args = .error f) :
    f.IsRecoverable ∨ f.IsExcess ∧ ∃ v ∈ args, v.IsExtreme := by
  unfold Directive.settlePrecision at h
  split at h
  · cases h
  · cases h
  · rcases error_of_bind h with hnext | ⟨⟨n, rest⟩, hnext, hprecision⟩
    · exact .inl (nextWhole_error hnext)
    · obtain ⟨v, rfl, hv⟩ := nextWhole_ok hnext
      dsimp only at hprecision
      split at hprecision <;> cases hprecision
      rename_i hrange
      unfold precisionLimit at hrange
      exact .inr ⟨Fault.isExcess rfl, v, List.mem_cons_self, .inr ⟨n, hv, by omega⟩⟩

theorem settleWidth_suffix {sizes : Bool × Nat} (h : d.settleWidth args = .ok (sizes, rest)) : rest <:+ args := by
  unfold Directive.settleWidth at h
  split at h
  · cases h
    exact List.suffix_refl _
  · cases h
    exact List.suffix_refl _
  · obtain ⟨⟨n, rest'⟩, hnext, hwidth⟩ := ok_of_bind h
    obtain ⟨v, rfl, -⟩ := nextWhole_ok hnext
    dsimp only at hwidth
    split at hwidth <;> cases hwidth
    exact List.suffix_cons _ _

/-- A precision is one that the directive writes, or an argument. -/
theorem settlePrecision_ok {precision : Option Nat} (h : d.settlePrecision args = .ok (precision, rest)) :
    rest <:+ args ∧
      ∀ n, precision = some n → wholeDigitsLimit < n → d.precision = some (.fixed n) ∨ ∃ v ∈ args, v.IsExtreme := by
  unfold Directive.settlePrecision at h
  split at h
  · cases h
    exact ⟨List.suffix_refl _, nofun⟩
  · cases h
    refine ⟨List.suffix_refl _, fun n hn _ => ?_⟩
    cases hn
    exact .inl ‹_›
  · obtain ⟨⟨n, rest'⟩, hnext, hprecision⟩ := ok_of_bind h
    obtain ⟨v, rfl, hv⟩ := nextWhole_ok hnext
    dsimp only at hprecision
    split at hprecision <;> cases hprecision
    refine ⟨List.suffix_cons _ _, fun m hm hlarge => .inr ⟨v, List.mem_cons_self, .inr ⟨n, hv, ?_⟩⟩⟩
    cases hm
    unfold wholeDigitsLimit precisionLimit at hlarge
    omega

theorem settle_error (h : d.settle args = .error f) : f.IsRecoverable ∨ f.IsExcess ∧ ∃ v ∈ args, v.IsExtreme := by
  rcases error_of_bind h with hwidth | ⟨⟨⟨left, width⟩, args'⟩, hwidth, h'⟩
  · exact settleWidth_error hwidth
  · rcases error_of_bind h' with hprecision | ⟨⟨precision, rest⟩, -, hshape⟩
    · refine (settlePrecision_error hprecision).imp_right fun ⟨hf, v, hv, hextreme⟩ => ?_
      exact ⟨hf, v, (settleWidth_suffix hwidth).subset hv, hextreme⟩
    · cases hshape

/-- A precision that is too great is one that the directive writes, or an argument. -/
theorem settle_ok (h : d.settle args = .ok (shape, rest)) :
    rest <:+ args ∧
      (shape.IsVast → (∃ n, d.precision = some (.fixed n) ∧ wholeDigitsLimit < n) ∨ ∃ v ∈ args, v.IsExtreme) := by
  obtain ⟨⟨⟨left, width⟩, args'⟩, hwidth, h'⟩ := ok_of_bind h
  obtain ⟨⟨precision, rest'⟩, hprecision, hshape⟩ := ok_of_bind h'
  cases hshape
  have hsuffix := settleWidth_suffix hwidth
  obtain ⟨hsuffix', hvast⟩ := settlePrecision_ok hprecision
  refine ⟨hsuffix'.trans hsuffix, fun ⟨n, hn, hle⟩ => ?_⟩
  rcases hvast n hn hle with hfixed | ⟨v, hv, hextreme⟩
  · exact .inl ⟨n, hfixed, hle⟩
  · exact .inr ⟨v, hsuffix.subset hv, hextreme⟩

/-! ## Filling pieces -/

/-- A size in a template or among its arguments is too great. -/
inductive Excess (ps : List Piece) (args : List Value) : Failure → Prop
  /-- An argument is beyond the range of its conversion, or an open size. -/
  | argument {f : Failure} {v : Value} (hf : f.IsExcess) (hv : v ∈ args) (h : v.IsExtreme) : Excess ps args f
  /-- A directive asks for more digits than a whole number may have, and there is an argument that is no text. -/
  | precision {f : Failure} {d : Directive} {conversion : Char} {i n : Nat} {v : Value} (hf : f.IsExcess)
      (hd : .directive d conversion i ∈ ps) (hn : d.precision = some (.fixed n)) (h : wholeDigitsLimit < n)
      (hv : v ∈ args) (ht : v.isText = false) : Excess ps args f

theorem Excess.isExcess (h : Excess ps args f) : f.IsExcess := by
  cases h with
  | argument hf => exact hf
  | precision hf => exact hf

theorem Excess.mono {ps' : List Piece} {args' : List Value} (h : Excess ps args f) (hps : ps ⊆ ps')
    (hargs : args ⊆ args') : Excess ps' args' f := by
  cases h with
  | argument hf hv h => exact .argument hf (hargs hv) h
  | precision hf hd hn h hv ht => exact .precision hf (hps hd) hn h (hargs hv) ht

/-- How filling pieces with arguments fails. -/
def FailsWith (ps : List Piece) (args : List Value) (f : Failure) : Prop :=
  f.IsRecoverable ∨ (∃ v ∈ args, v.shown = .error f) ∨ Excess ps args f

theorem FailsWith.mono {ps' : List Piece} {args' : List Value} (h : FailsWith ps args f) (hps : ps ⊆ ps')
    (hargs : args ⊆ args') : FailsWith ps' args' f := by
  rcases h with h | ⟨v, hv, hshown⟩ | h
  · exact .inl h
  · exact .inr (.inl ⟨v, hargs hv, hshown⟩)
  · exact .inr (.inr (h.mono hps hargs))

/-- A directive with the sizes that it settled on fails by its argument or by its sizes. -/
theorem directive_error (hsettle : d.settle args = .ok (shape, v :: rest)) (h : shape.write conversion i v = .error f) :
    FailsWith (.directive d conversion i :: ps) args f := by
  obtain ⟨hsuffix, hvast⟩ := settle_ok hsettle
  have hv : v ∈ args := hsuffix.subset List.mem_cons_self
  rcases write_error h with hf | hshown | ⟨hf, hextreme | ⟨ht, hprecision⟩⟩
  · exact .inl hf
  · exact .inr (.inl ⟨v, hv, hshown⟩)
  · exact .inr (.inr (.argument hf hv hextreme))
  · rcases hvast hprecision with ⟨n, hn, hle⟩ | ⟨w, hw, hextreme⟩
    · exact .inr (.inr (.precision hf List.mem_cons_self hn hle hv ht))
    · exact .inr (.inr (.argument hf hw hextreme))

/-- Filling pieces fails in no other way. -/
theorem fillPieces_error (hp : ∀ p ∈ ps, p.Recovers) (h : fillPieces ps args = .error f) : FailsWith ps args f := by
  induction ps generalizing args with
  | nil =>
    cases args with
    | nil => cases h
    | cons v args =>
      cases h
      exact .inl (Fault.isRecoverable (.inl rfl))
  | cons p ps ih =>
    obtain ⟨hhere, hrest⟩ := List.forall_mem_cons.1 hp
    have hsubset : ps ⊆ p :: ps := List.subset_cons_self p ps
    cases p with
    | literal c =>
      rcases error_of_bind h with h | ⟨cs, -, h⟩
      · exact (ih hrest h).mono hsubset (List.Subset.refl _)
      · cases h
    | broken d fault =>
      rcases error_of_bind h with h | ⟨sizes, -, h⟩
      · rcases settle_error h with h | ⟨hf, v, hv, hextreme⟩
        · exact .inl h
        · exact .inr (.inr (.argument hf hv hextreme))
      · cases h
        exact .inl hhere
    | directive d conversion i =>
      rcases error_of_bind h with h | ⟨⟨shape, args'⟩, hsettle, h⟩
      · rcases settle_error h with h | ⟨hf, v, hv, hextreme⟩
        · exact .inl h
        · exact .inr (.inr (.argument hf hv hextreme))
      · cases args' with
        | nil =>
          cases h
          exact .inl (Fault.isRecoverable (.inl rfl))
        | cons v rest =>
          rcases error_of_bind h with h | ⟨text, -, h⟩
          · exact directive_error hsettle h
          · rcases error_of_bind h with h | ⟨cs, -, h⟩
            · obtain ⟨hsuffix, -⟩ := settle_ok hsettle
              exact (ih hrest h).mono hsubset fun w hw => hsuffix.subset (List.mem_cons_of_mem _ hw)
            · cases h

/-- How filling a template fails. -/
theorem fill_error {template : String} (h : fill template args = .error f) : FailsWith (pieces template) args f := by
  rcases error_of_bind h with h | ⟨cs, -, h⟩
  · exact fillPieces_error (scan_recovers .text 0 template.toList) h
  · cases h

end Template

end ContextLog
