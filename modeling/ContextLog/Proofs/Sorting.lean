import Mathlib.Data.String.Basic
import Mathlib.Data.List.Basic
import ContextLog.Fields.Sorted
import ContextLog.Message
/-!
# Sorting entries

Orders that agree on each two entries of a list sort it in the same way, for an entry is never compared with itself
(`sortEntries_congr`). If the order is that of keys in which the entries differ, the sort comes to its end, with the
entries in rising order of their keys (`sortEntries_sorted`).

The entries of a mapping have different keys, so the order of its entries as pairs never gets to look at their values
(`Fields.sorted_of_goesByKeys`), and entries whose keys are texts can always be sorted (`Fields.sorted_texts`).
-/

namespace ContextLog.Fields

variable {less less' : EntryOrder} {run run' rest es sorted next : List FieldEntry} {last e : FieldEntry}

/-! ## No entry is lost -/

theorem risingRun_perm (h : risingRun less run last es = .ok (run', rest)) : (run' ++ rest).Perm (run ++ es) := by
  induction es generalizing run last with
  | nil =>
    cases h
    exact run.reverse_perm.append_right []
  | cons e es ih =>
    rw [risingRun] at h
    rcases hless : less e last with types | _ | _ <;> rw [hless] at h
    · cases h
    · exact (ih h).trans List.perm_middle.symm
    · cases h
      exact run.reverse_perm.append_right _

theorem fallingRun_perm (h : fallingRun less run last es = .ok (run', rest)) : (run' ++ rest).Perm (run ++ es) := by
  induction es generalizing run last with
  | nil =>
    cases h
    exact .refl _
  | cons e es ih =>
    rw [fallingRun] at h
    rcases hless : less e last with types | _ | _ <;> rw [hless] at h
    · cases h
    · cases h
      exact .refl _
    · exact (ih h).trans List.perm_middle.symm

theorem firstRun_perm (h : firstRun less es = .ok (run, rest)) : (run ++ rest).Perm es := by
  unfold firstRun at h
  split at h
  · cases h
    exact .refl _
  · cases h
    exact .refl _
  · rename_i d e es
    rcases hless : less e d with types | _ | _ <;> rw [hless] at h
    · cases h
    · exact (risingRun_perm h).trans (.swap d e es)
    · exact (fallingRun_perm h).trans (.swap d e es)

theorem insertEntry_perm (h : insertEntry less sorted e = .ok next) : next.Perm (e :: sorted) := by
  unfold insertEntry at h
  cases hi : place less e sorted 0 sorted.length (Nat.le_refl _) with
  | error types =>
    rw [hi] at h
    cases h
  | ok i =>
    rw [hi] at h
    cases h
    have hmiddle : (sorted.take i ++ e :: sorted.drop i).Perm (e :: (sorted.take i ++ sorted.drop i)) :=
      List.perm_middle
    rwa [List.take_append_drop] at hmiddle

theorem insertEntries_perm (h : insertEntries less sorted es = .ok next) : next.Perm (sorted ++ es) := by
  induction es generalizing sorted with
  | nil =>
    cases h
    rw [List.append_nil]
  | cons e es ih =>
    rw [insertEntries] at h
    cases hnext : insertEntry less sorted e with
    | error types =>
      rw [hnext] at h
      cases h
    | ok between =>
      rw [hnext] at h
      have hperm : (between ++ es).Perm (e :: sorted ++ es) := (insertEntry_perm hnext).append_right es
      exact (ih h).trans (hperm.trans List.perm_middle.symm)

/-! ## What is compared -/

/-- Two orders say the same of two entries, whichever of them stands first. -/
def Agree (less less' : EntryOrder) (a b : FieldEntry) : Prop := less a b = less' a b ∧ less b a = less' b a

theorem Agree.symm {a b : FieldEntry} (h : Agree less less' a b) : Agree less less' b a := ⟨h.2, h.1⟩

theorem risingRun_congr (run : List FieldEntry) (h : (last :: es).Pairwise (Agree less less')) :
    risingRun less run last es = risingRun less' run last es := by
  induction es generalizing run last with
  | nil => rfl
  | cons e es ih =>
    obtain ⟨hlast, hes⟩ := List.pairwise_cons.1 h
    rw [risingRun, risingRun, (hlast e List.mem_cons_self).2]
    rcases less' e last with types | _ | _
    · rfl
    · exact ih (e :: run) hes
    · rfl

theorem fallingRun_congr (run : List FieldEntry) (h : (last :: es).Pairwise (Agree less less')) :
    fallingRun less run last es = fallingRun less' run last es := by
  induction es generalizing run last with
  | nil => rfl
  | cons e es ih =>
    obtain ⟨hlast, hes⟩ := List.pairwise_cons.1 h
    rw [fallingRun, fallingRun, (hlast e List.mem_cons_self).2]
    rcases less' e last with types | _ | _
    · rfl
    · rfl
    · exact ih (e :: run) hes

theorem firstRun_congr (h : es.Pairwise (Agree less less')) : firstRun less es = firstRun less' es := by
  unfold firstRun
  split
  · rfl
  · rfl
  · rename_i d e es
    obtain ⟨hd, hes⟩ := List.pairwise_cons.1 h
    rw [(hd e List.mem_cons_self).2]
    rcases less' e d with types | _ | _
    · rfl
    · exact risingRun_congr [e, d] hes
    · exact fallingRun_congr [e, d] hes

theorem place_congr (h : ∀ x ∈ sorted, Agree less less' e x) (low high : Nat) (hh : high ≤ sorted.length) :
    place less e sorted low high hh = place less' e sorted low high hh := by
  fun_induction place less e sorted low high hh with
  | case1 low high hh hlt middle hm ih₁ ih₂ =>
    rw [place.eq_def less', dif_pos hlt, (h _ (List.getElem_mem hm)).1]
    show (less' e sorted[middle] >>= _) = (less' e sorted[middle] >>= _)
    rcases less' e sorted[middle] with types | _ | _
    · rfl
    · exact ih₂
    · exact ih₁
  | case2 low high hh hlt => rw [place, dif_neg hlt]

theorem insertEntry_congr (h : ∀ x ∈ sorted, Agree less less' e x) :
    insertEntry less sorted e = insertEntry less' sorted e := by
  rw [insertEntry, insertEntry, place_congr h]

theorem insertEntries_congr (h : (sorted ++ es).Pairwise (Agree less less')) :
    insertEntries less sorted es = insertEntries less' sorted es := by
  induction es generalizing sorted with
  | nil => rfl
  | cons e es ih =>
    have hsorted : ∀ x ∈ sorted, Agree less less' e x := fun x hx =>
      ((List.pairwise_append.1 h).2.2 x hx e List.mem_cons_self).symm
    rw [insertEntries, insertEntries, insertEntry_congr hsorted]
    cases hnext : insertEntry less' sorted e with
    | error types => rfl
    | ok between =>
      -- The entries are the same ones, now with the next one among those in order.
      have hperm : (between ++ es).Perm (sorted ++ e :: es) :=
        ((insertEntry_perm hnext).append_right es).trans List.perm_middle.symm
      exact ih ((hperm.pairwise_iff Agree.symm).2 h)

/-- A sort compares no entry with itself and none that is not in the list: orders that agree on each two entries at
different places of it come to the same. -/
theorem sortEntries_congr (h : es.Pairwise (Agree less less')) : sortEntries less es = sortEntries less' es := by
  rw [sortEntries, sortEntries, firstRun_congr h]
  cases hrun : firstRun less' es with
  | error types => rfl
  | ok r => exact insertEntries_congr (((firstRun_perm hrun).pairwise_iff Agree.symm).2 h)

/-! ## Keys in order -/

section keys

variable {α : Type} {key : FieldEntry → α}

/-- No key stands twice. -/
def Differing (key : FieldEntry → α) (es : List FieldEntry) : Prop := es.Pairwise fun a b => key a ≠ key b

theorem Differing.perm (h : Differing key es) (hp : next.Perm es) : Differing key next :=
  (hp.pairwise_iff Ne.symm).2 h

variable [LinearOrder α]

/-- Entries in the order of their keys. -/
def byKey (key : FieldEntry → α) : EntryOrder := fun a b => .ok (decide (key a < key b))

/-- The keys rise along the list. -/
def Rising (key : FieldEntry → α) (es : List FieldEntry) : Prop := es.Pairwise fun a b => key a < key b

theorem risingRun_sorted {earlier : List FieldEntry} (hrun : (last :: earlier).Pairwise fun a b => key b < key a)
    (hd : Differing key (last :: es)) :
    ∃ run rest, risingRun (byKey key) (last :: earlier) last es = .ok (run, rest) ∧ Rising key run := by
  induction es generalizing last earlier with
  | nil => exact ⟨_, [], rfl, List.pairwise_reverse.2 hrun⟩
  | cons e es ih =>
    obtain ⟨hlast, hes⟩ := List.pairwise_cons.1 hd
    rw [risingRun, byKey]
    by_cases hlt : key e < key last
    · exact ⟨(last :: earlier).reverse, e :: es, by simp [hlt]; rfl, List.pairwise_reverse.2 hrun⟩
    · have hgt : key last < key e := lt_of_le_of_ne (not_lt.1 hlt) (hlast e List.mem_cons_self)
      have hbehind : ∀ x ∈ last :: earlier, key x < key e := by
        intro x hx
        rcases List.mem_cons.1 hx with rfl | hx
        · exact hgt
        · exact lt_trans ((List.pairwise_cons.1 hrun).1 x hx) hgt
      obtain ⟨run, rest, h, hrising⟩ := ih (List.pairwise_cons.2 ⟨hbehind, hrun⟩) hes
      exact ⟨run, rest, by simpa [hlt, bind, Except.bind] using h, hrising⟩

theorem fallingRun_sorted {later : List FieldEntry} (hrun : Rising key (last :: later)) :
    ∃ run rest, fallingRun (byKey key) (last :: later) last es = .ok (run, rest) ∧ Rising key run := by
  induction es generalizing last later with
  | nil => exact ⟨_, [], rfl, hrun⟩
  | cons e es ih =>
    rw [fallingRun, byKey]
    by_cases hlt : key e < key last
    · have hbefore : ∀ x ∈ last :: later, key e < key x := by
        intro x hx
        rcases List.mem_cons.1 hx with rfl | hx
        · exact hlt
        · exact lt_trans hlt ((List.pairwise_cons.1 hrun).1 x hx)
      obtain ⟨run, rest, h, hrising⟩ := ih (List.pairwise_cons.2 ⟨hbefore, hrun⟩)
      exact ⟨run, rest, by simpa [hlt, bind, Except.bind] using h, hrising⟩
    · exact ⟨last :: later, e :: es, by simp [hlt]; rfl, hrun⟩

theorem firstRun_sorted (hd : Differing key es) :
    ∃ run rest, firstRun (byKey key) es = .ok (run, rest) ∧ Rising key run := by
  unfold firstRun
  split
  · exact ⟨[], [], rfl, .nil⟩
  · exact ⟨_, [], rfl, List.pairwise_singleton _ _⟩
  · rename_i d e rest
    obtain ⟨hne, hrest⟩ := List.pairwise_cons.1 hd
    rw [byKey]
    by_cases hlt : key e < key d
    · have hpair : Rising key [e, d] := List.pairwise_pair.2 hlt
      have hfalls : ∃ run rest', fallingRun (byKey key) [e, d] e rest = .ok (run, rest') ∧ Rising key run :=
        fallingRun_sorted hpair
      obtain ⟨run, rest, h, hrising⟩ := hfalls
      exact ⟨run, rest, by simpa [hlt, bind, Except.bind] using h, hrising⟩
    · have hgt : key d < key e := lt_of_le_of_ne (not_lt.1 hlt) (hne e List.mem_cons_self)
      obtain ⟨run, rest, h, hrising⟩ := risingRun_sorted (List.pairwise_pair.2 hgt) hrest
      exact ⟨run, rest, by simpa [hlt, bind, Except.bind] using h, hrising⟩

/-- A list in order is halved at the place of a key: all keys before it are lesser ones, all keys behind it greater
ones. -/
def Splits (key : FieldEntry → α) (k : α) (sorted : List FieldEntry) (low high : Nat) : Prop :=
  (∀ x ∈ sorted.take low, key x < k) ∧ ∀ x ∈ sorted.drop high, k < key x

theorem place_sorted (hs : Rising key sorted) (hne : ∀ x ∈ sorted, key x ≠ key e) (low high : Nat)
    (hh : high ≤ sorted.length) (hsplit : Splits key (key e) sorted low high) (hle : low ≤ high) :
    ∃ i, place (byKey key) e sorted low high hh = .ok i ∧ Splits key (key e) sorted i i := by
  fun_induction place (byKey key) e sorted low high hh with
  | case1 low high hh hlt middle hm ih₁ ih₂ =>
    have hrises := List.pairwise_iff_getElem.1 hs
    rw [byKey]
    by_cases hbefore : key e < key sorted[middle]
    · -- All entries from the middle on stand behind.
      have hbehind : ∀ x ∈ sorted.drop middle, key e < key x := by
        intro x hx
        obtain ⟨j, hj, rfl⟩ := List.mem_drop_iff_getElem.1 hx
        rcases Nat.eq_zero_or_pos j with rfl | hpos
        · simpa using hbefore
        · exact lt_trans hbefore (hrises _ _ hm (by omega) (by omega))
      obtain ⟨i, hi, hsplits⟩ := ih₁ ⟨hsplit.1, hbehind⟩ (by omega)
      exact ⟨i, by simpa [hbefore, bind, Except.bind] using hi, hsplits⟩
    · have hgt : key sorted[middle] < key e := lt_of_le_of_ne (not_lt.1 hbefore) (hne _ (List.getElem_mem hm))
      have hahead : ∀ x ∈ sorted.take (middle + 1), key x < key e := by
        intro x hx
        obtain ⟨j, hj, rfl⟩ := List.mem_take_iff_getElem.1 hx
        rcases Nat.lt_or_eq_of_le (show j ≤ middle by omega) with hlt | rfl
        · exact lt_trans (hrises _ _ (by omega) hm hlt) hgt
        · exact hgt
      obtain ⟨i, hi, hsplits⟩ := ih₂ ⟨hahead, hsplit.2⟩ (by omega)
      exact ⟨i, by simpa [hbefore, bind, Except.bind] using hi, hsplits⟩
  | case2 low high hh hlt =>
    obtain rfl : low = high := by omega
    exact ⟨low, rfl, hsplit⟩

theorem insertEntry_sorted (hs : Rising key sorted) (hne : ∀ x ∈ sorted, key x ≠ key e) :
    ∃ next, insertEntry (byKey key) sorted e = .ok next ∧ Rising key next := by
  have hnothing : Splits key (key e) sorted 0 sorted.length := by simp [Splits]
  obtain ⟨i, hi, hbefore, hbehind⟩ :=
    place_sorted hs hne 0 sorted.length (Nat.le_refl _) hnothing (Nat.zero_le _)
  refine ⟨sorted.take i ++ e :: sorted.drop i, by rw [insertEntry, hi]; rfl, ?_⟩
  refine List.pairwise_append.2 ⟨hs.take, List.pairwise_cons.2 ⟨hbehind, hs.drop⟩, ?_⟩
  intro x hx y hy
  rcases List.mem_cons.1 hy with rfl | hy
  · exact hbefore x hx
  · exact lt_trans (hbefore x hx) (hbehind y hy)

theorem insertEntries_sorted (hs : Rising key sorted) (hd : Differing key (sorted ++ es)) :
    ∃ all, insertEntries (byKey key) sorted es = .ok all ∧ Rising key all := by
  induction es generalizing sorted with
  | nil => exact ⟨sorted, rfl, hs⟩
  | cons e es ih =>
    have hne : ∀ x ∈ sorted, key x ≠ key e := fun x hx =>
      (List.pairwise_append.1 hd).2.2 x hx e List.mem_cons_self
    obtain ⟨next, hnext, hnextRising⟩ := insertEntry_sorted hs hne
    have hperm : (next ++ es).Perm (sorted ++ e :: es) :=
      ((insertEntry_perm hnext).append_right es).trans List.perm_middle.symm
    obtain ⟨all, hall, hrising⟩ := ih hnextRising (hd.perm hperm)
    exact ⟨all, by rw [insertEntries, hnext]; exact hall, hrising⟩

/-- Entries of different keys are sorted by them under every order that goes by the keys. -/
theorem sortEntries_sorted (h : es.Pairwise (Agree less (byKey key))) (hd : Differing key es) :
    ∃ all, sortEntries less es = .ok all ∧ all.Perm es ∧ Rising key all := by
  obtain ⟨run, rest, hrun, hrising⟩ := firstRun_sorted hd
  have hperm := firstRun_perm hrun
  obtain ⟨all, hall, hsorted⟩ := insertEntries_sorted hrising (hd.perm hperm)
  refine ⟨all, ?_, (insertEntries_perm hall).trans hperm, hsorted⟩
  rw [sortEntries_congr h, sortEntries, hrun]
  exact hall

end keys

/-! ## The entries of a mapping -/

/-- An order looks at the keys of two entries and at nothing else of them. What it says of two entries with the same
key is left open. -/
def GoesByKeys (less : EntryOrder) : Prop := ∀ a b : FieldEntry, ¬ a.1.SameKey b.1 → less a b = a.1.less b.1

theorem pairLess_goesByKeys : GoesByKeys pairLess := by
  intro a b hne
  rw [pairLess, Value.less, Value.less.lessList, if_neg hne]

theorem pairwise_not_sameKey (f : Fields) : f.entries.Pairwise fun a b => ¬ a.1.SameKey b.1 :=
  List.pairwise_map.1 f.distinct

/-- Sorting a mapping compares no two values: every order that goes by the keys where they differ sorts it in the same
way, whatever it does with two entries of one key. -/
theorem sorted_of_goesByKeys (h : GoesByKeys less) (f : Fields) : sortEntries less f.entries = f.sorted := by
  have hagree : ∀ a b : FieldEntry, ¬ a.1.SameKey b.1 → less a b = pairLess a b := fun a b hne =>
    (h a b hne).trans (pairLess_goesByKeys a b hne).symm
  refine sortEntries_congr (f.pairwise_not_sameKey.imp fun {a b} hne => ?_)
  exact ⟨hagree a b hne, hagree b a fun q => hne (Eq.symm q)⟩

/-- The keys are texts. -/
def HaveTextKeys (es : List FieldEntry) : Prop := ∀ e ∈ es, e.1.isText

theorem HaveTextKeys.perm (h : HaveTextKeys es) (hp : next.Perm es) : HaveTextKeys next := fun e he =>
  h e (hp.subset he)

/-- The text that the key of an entry is. -/
def textKey (e : FieldEntry) : String :=
  match e.1 with
  | .text t => t.content
  | _ => ""

theorem keyForm_of_isText {e : FieldEntry} (h : e.1.isText) : e.1.keyForm = [.text (textKey e)] := by
  obtain ⟨k, v⟩ := e
  cases k with
  | text t => rfl
  | _ => cases h

/-- Two texts are the same key if they are the same text. -/
theorem textKey_ne {a b : FieldEntry} (ha : a.1.isText) (hb : b.1.isText) (hne : ¬ a.1.SameKey b.1) :
    textKey a ≠ textKey b := fun h => hne (by rw [Value.SameKey, keyForm_of_isText ha, keyForm_of_isText hb, h])

theorem less_of_isText {a b : FieldEntry} (ha : a.1.isText) (hb : b.1.isText) :
    a.1.less b.1 = .ok (decide (textKey a < textKey b)) := by
  obtain ⟨k, v⟩ := a
  obtain ⟨k', v'⟩ := b
  cases k with
  | text s =>
    cases k' with
    | text t =>
      rw [Value.less]
      rfl
    | _ => cases hb
  | _ => cases ha

/-- Entries whose keys are texts can be sorted, and come to stand in the order of the code points of their keys. -/
theorem sorted_texts {f : Fields} (h : HaveTextKeys f.entries) :
    ∃ es, f.sorted = .ok es ∧ es.Perm f.entries ∧ Rising textKey es := by
  have hkeys : f.entries.Pairwise fun a b => a.1.isText ∧ b.1.isText ∧ ¬ a.1.SameKey b.1 :=
    f.pairwise_not_sameKey.imp_of_mem fun ha hb hne => ⟨h _ ha, h _ hb, hne⟩
  apply sortEntries_sorted
  · refine hkeys.imp fun {a b} ⟨ha, hb, hne⟩ => ?_
    have hne' : ¬ b.1.SameKey a.1 := fun q => hne (Eq.symm q)
    exact ⟨(pairLess_goesByKeys a b hne).trans (less_of_isText ha hb),
      (pairLess_goesByKeys b a hne').trans (less_of_isText hb ha)⟩
  · exact hkeys.imp fun {a b} ⟨ha, hb, hne⟩ => textKey_ne ha hb hne

end ContextLog.Fields
