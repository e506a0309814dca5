import Mathlib.Data.List.Forall2
import Mathlib.Data.List.Induction
import Mathlib.Data.List.Nodup
import ContextLog.Proofs.CommandLine
import ContextLog.Proofs.Merging
/-!
# Fields given as pairs

Fields that are given as `KEY=VALUE` are read if every text has an equals sign with something in front of it. The
keys then stand in the order in which they were first given, and each has the value that it was given last. If a
text is no pair, the first such text is quoted in the refusal and nothing is read. So a mapping of texts that is
written as pairs is read back as it was (`pairs_read`).
-/

namespace ContextLog

/-! ## Mappings of texts -/

/-- A text as a key, with a text under it. -/
def textEntry (kv : String × String) : Value × Value := (.str kv.1, .str kv.2)

/-- The value that a key was given last. -/
def lastValue? (kvs : List (String × String)) (key : String) : Option String :=
  ((kvs.filter (·.1 = key)).getLast?).map (·.2)

namespace Fields

variable {kvs : List (String × String)}

theorem keyForm_str_injective : Function.Injective fun key => (Value.str key).keyForm := fun key key' h => by
  simpa [Value.str, Value.keyForm] using h

theorem entryForms_texts (kvs : List (String × String)) :
    entryForms (kvs.map textEntry) = (kvs.map (·.1)).map fun key => (Value.str key).keyForm := by
  simp [entryForms, textEntry]

theorem mem_forms_texts (key : String) :
    (Value.str key).keyForm ∈ entryForms (ofList (kvs.map textEntry)).entries ↔ key ∈ kvs.map (·.1) := by
  have hnone : (Value.str key).keyForm ∉ entryForms empty.entries := List.not_mem_nil
  rw [ofList, mem_forms_setAll, or_iff_right hnone, entryForms_texts,
    List.mem_map_of_injective keyForm_str_injective]

/-- Keys stand in the order in which they were first given. -/
theorem keys_texts (kvs : List (String × String)) :
    (ofList (kvs.map textEntry)).keys = (kvs.map (·.1)).eraseDups.map .str := by
  -- On the last write: it leaves the keys as they are, or its own key comes behind them.
  induction kvs using List.reverseRecOn with
  | nil => rfl
  | append_singleton kvs kv ih =>
    have hlast : ofList ((kvs ++ [kv]).map textEntry) =
        (ofList (kvs.map textEntry)).set (.str kv.1) (.str kv.2) := by
      rw [List.map_append, ofList, setAll_append]
      rfl
    rw [hlast, keys_set, ih, List.map_append, List.eraseDups_append]
    by_cases h : kv.1 ∈ kvs.map (·.1)
    · rw [if_pos ((isSome_get?_iff _ _).2 ((mem_forms_texts kv.1).2 h))]
      simp [List.removeAll, h]
    · have hone : [kv.1].eraseDups = [kv.1] := rfl
      rw [if_neg fun hsome => h ((mem_forms_texts kv.1).1 ((isSome_get?_iff _ _).1 hsome))]
      simp [List.removeAll, h, hone]

/-- Texts under distinct keys are kept as they are given. -/
theorem entries_texts (h : (kvs.map (·.1)).Nodup) :
    (ofList (kvs.map textEntry)).entries = kvs.map textEntry := by
  refine entries_setAll (f := empty) ?_
  show (entryForms (kvs.map textEntry)).Nodup
  rw [entryForms_texts]
  exact h.map keyForm_str_injective

end Fields

namespace CommandLine

/-! ## Reading and writing pairs -/

/-- A text with what stands before its first equals sign and what stands behind it. -/
def Splits (text : String) (kv : String × String) : Prop :=
  text = kv.1 ++ "=" ++ kv.2 ∧ '=' ∉ kv.1.toList

/-- A key and a value as a pair. -/
def writePair (kv : String × String) : String := kv.1 ++ "=" ++ kv.2

theorem not_isBadPair {pair : String} :
    ¬ IsBadPair pair ↔ '=' ∈ pair.toList ∧ pair.toList.head? ≠ some '=' := by
  rw [IsBadPair, not_or, Decidable.not_not]

theorem not_isBadPair_writePair {kv : String × String} (h : IsGood kv) : ¬ IsBadPair (writePair kv) := by
  have hchars : (writePair kv).toList = kv.1.toList ++ '=' :: kv.2.toList := by
    simp [writePair, String.toList_append]
  rw [not_isBadPair, hchars]
  refine ⟨by simp, fun hhead => ?_⟩
  cases hkey : kv.1.toList with
  | nil => exact h.1 (String.toList_eq_nil_iff.1 hkey)
  | cons c cs =>
    rw [hkey, List.cons_append, List.head?_cons, Option.some_inj] at hhead
    exact h.2 (by rw [hkey, hhead]; exact List.mem_cons_self)

/-- No text is split in two ways. -/
theorem Splits.unique {text : String} {kv kv' : String × String} (h : Splits text kv) (h' : Splits text kv') :
    kv = kv' := by
  have hsplit : ∀ {kv : String × String}, Splits text kv →
      splitAtEquals text.toList = (kv.1.toList, some kv.2.toList) := by
    rintro kv ⟨rfl, hkey⟩
    rw [← splitAtEquals_append hkey]
    simp [String.toList_append]
  obtain ⟨hkey, hvalue⟩ := Prod.mk.inj ((hsplit h).symm.trans (hsplit h'))
  exact Prod.ext (String.toList_inj.1 hkey) (String.toList_inj.1 (Option.some.inj hvalue))

/-- What has been read from pairs is what they split into. -/
theorem AreFields.splits {pairs : List String} {f : Fields} (h : AreFields pairs f) :
    ∃ kvs, List.Forall₂ Splits pairs kvs ∧ f.keys = (kvs.map (·.1)).eraseDups.map .str ∧
      ∀ key, f.get? (.str key) = (lastValue? kvs key).map .str := by
  obtain ⟨kvs, rfl, hgood, rfl, hvalues⟩ := h
  refine ⟨kvs, ?_, Fields.keys_texts kvs, fun key => ?_⟩
  · rw [List.forall₂_map_left_iff, List.forall₂_same]
    exact fun kv hkv => ⟨rfl, (hgood kv hkv).2⟩
  · rw [hvalues, lastValue?, Option.map_map]
    rfl

/-- Pairs are read as the fields that they were written from. -/
theorem readPairs_writePair {kvs : List (String × String)} (hgood : ∀ kv ∈ kvs, IsGood kv) :
    readPairs (kvs.map writePair) = .ok (.ofList (kvs.map textEntry)) := by
  have hread : (kvs.map writePair).mapM readPair = .ok kvs := by
    induction kvs with
    | nil => rfl
    | cons kv kvs ih =>
      obtain ⟨hkv, hkvs⟩ := List.forall_mem_cons.1 hgood
      obtain ⟨kv', hpair, hwritten, hgood'⟩ := readPair_good (not_isBadPair_writePair hkv)
      have hsame : kv' = kv := Splits.unique ⟨hwritten, hgood'.2⟩ ⟨rfl, hkv.2⟩
      rw [List.map_cons, List.mapM_cons, hpair, ih hkvs, hsame]
      rfl
  rw [readPairs, hread]
  rfl

/-! ## The law -/

/-- What becomes of texts that are given as pairs. -/
structure PairsLaw (texts : List String) : Prop where
  /-- They are read if each has an equals sign that is not at its start. -/
  accepted : (∃ f, readPairs texts = .ok f) ↔ ∀ text ∈ texts, '=' ∈ text.toList ∧ text.toList.head? ≠ some '='
  /-- Each is split at its first equals sign. The keys stand in the order in which they were first given, and each
  has the value that it was given last. -/
  fields : ∀ f, readPairs texts = .ok f →
    ∃ kvs, List.Forall₂ Splits texts kvs ∧ f.keys = (kvs.map (·.1)).eraseDups.map .str ∧
      ∀ key, f.get? (.str key) = (lastValue? kvs key).map .str
  /-- They are refused for the first text that is no pair, with its representation in the message. -/
  refused : ∀ fault, readPairs texts = .error fault ↔
    ∃ before text later shown, texts = before ++ text :: later ∧ (∀ t ∈ before, ¬ IsBadPair t) ∧ IsBadPair text ∧
      (Value.str text).repr = .ok shown ∧
        fault = .badParameter ("expected KEY=VALUE, got " ++ shown) (some "--field")
  /-- A mapping of texts that was written as pairs is read back with its entries in their order. -/
  readBack : ∀ kvs : List (String × String), texts = kvs.map writePair → (kvs.map (·.1)).Nodup →
    (∀ kv ∈ kvs, kv.1 ≠ "" ∧ '=' ∉ kv.1.toList) →
      ∃ f, readPairs texts = .ok f ∧ f.entries = kvs.map fun kv => (.str kv.1, .str kv.2)

/-- Texts that are all pairs are read as the fields that they give, one that is none is refused with the first such
text in the message, and what was written as pairs is read back. -/
theorem pairs_read (texts : List String) : PairsLaw texts := by
  constructor
  case accepted =>
    simp only [← not_isBadPair]
    constructor
    · rintro ⟨f, hf⟩ text htext hbad
      obtain ⟨before, pair, later, rfl, hbefore, hpair⟩ := exists_first_bad ⟨text, htext, hbad⟩
      cases hf.symm.trans (readPairs_bad hbefore hpair later)
    · intro hgood
      obtain ⟨f, hf, -, -⟩ := readPairs_good hgood
      exact ⟨f, hf⟩
  case fields =>
    intro f hf
    by_cases hbad : ∃ text ∈ texts, IsBadPair text
    · obtain ⟨before, pair, later, rfl, hbefore, hpair⟩ := exists_first_bad hbad
      cases hf.symm.trans (readPairs_bad hbefore hpair later)
    · obtain ⟨f', hf', hfields, -⟩ := readPairs_good fun text htext h => hbad ⟨text, htext, h⟩
      cases hf.symm.trans hf'
      exact hfields.splits
  case refused =>
    intro fault
    constructor
    · intro hfault
      by_cases hbad : ∃ text ∈ texts, IsBadPair text
      · obtain ⟨before, pair, later, rfl, hbefore, hpair⟩ := exists_first_bad hbad
        cases hfault.symm.trans (readPairs_bad hbefore hpair later)
        exact ⟨before, pair, later, Text.quoted pair, rfl, hbefore, hpair, rfl, rfl⟩
      · obtain ⟨f, hf, -, -⟩ := readPairs_good fun text htext h => hbad ⟨text, htext, h⟩
        cases hfault.symm.trans hf
    · rintro ⟨before, text, later, shown, rfl, hbefore, hbad, hshown, rfl⟩
      rw [readPairs_bad hbefore hbad, notAPair]
      cases hshown
      rfl
  case readBack =>
    rintro kvs rfl hdistinct hgood
    exact ⟨_, readPairs_writePair hgood, Fields.entries_texts hdistinct⟩

end CommandLine

end ContextLog
