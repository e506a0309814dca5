import ContextLog.Line
import ContextLog.Proofs.Sorting
import ContextLog.Proofs.Writes
/-!
# What a line shows of the fields

A mapping with texts as keys has a line if its values have representations, and the line shows each of its fields once,
in the order of the keys (`formatLine_shown`). So the line tells no more of the mapping than what stands under each key:
mappings whose values are represented alike have the same lines, in whatever order their keys were set
(`lines_agree`). Values that are equal need not be represented alike, though (`lines_of_equal_mappings`).
-/

namespace ContextLog

open Fields

/-- The entries of a mapping as a line shows them: all keys in rising order, each with the representation of its
value. -/
structure Fields.ShowsAs (f : Fields) (es : List (String × String)) : Prop where
  rising : es.Pairwise fun a b => a.1 < b.1
  mem_iff : ∀ k shown, (k, shown) ∈ es ↔ (f.get? (.str k)).map Value.repr = some (.ok shown)

/-- A field in the text of a mapping. -/
def fieldText (e : String × String) : String := Text.quoted e.1 ++ ": " ++ e.2

/-- What stands behind the message: the fields in braces, if there are any. -/
def shownFields (es : List (String × String)) : String :=
  if es.isEmpty then "" else " " ++ ("\x7b" ++ ", ".intercalate (es.map fieldText) ++ "\x7d")

/-- An entry in one text, of which the fields are shown as these ones. -/
def entryText (l : Level) (msg : Text) (es : List (String × String)) : String :=
  "[" ++ l.name ++ "] " ++ msg.display ++ shownFields es

/-- The line of an entry. -/
def lineOf (l : Level) (msg : Text) (es : List (String × String)) : String := entryText l msg es ++ "\n"

variable {f g : Fields} {es es' : List (String × String)} {sorted : List FieldEntry}

/-! ## The shown fields -/

/-- Two mappings whose values are represented alike show the same. -/
theorem Fields.ShowsAs.unique (hf : f.ShowsAs es) (hg : g.ShowsAs es')
    (hsame : ∀ k, (f.get? k).map Value.repr = (g.get? k).map Value.repr) : es = es' := by
  have hnodup : ∀ {es : List (String × String)}, es.Pairwise (fun a b => a.1 < b.1) → es.Nodup := by
    intro es h
    refine List.Pairwise.imp (S := (· ≠ ·)) ?_ h
    rintro a b hlt rfl
    exact lt_irrefl a.1 hlt
  have hperm : es.Perm es' := by
    refine (List.perm_ext_iff_of_nodup (hnodup hf.rising) (hnodup hg.rising)).2 ?_
    rintro ⟨k, shown⟩
    rw [hf.mem_iff, hg.mem_iff, hsame]
  exact hperm.eq_of_pairwise (fun a b _ _ hab hba => absurd hab (lt_asymm hba)) hf.rising hg.rising

/-- An entry as a line shows it. -/
def shownEntry (e : FieldEntry) : String × String := (textKey e, e.2.repr.toOption.getD "")

/-- The representations of entries whose keys are texts and whose values have representations. -/
theorem reprEntries_shown {es : List FieldEntry} (hkeys : HaveTextKeys es)
    (hvalues : ∀ e ∈ es, ∃ shown, e.2.repr = .ok shown) :
    Value.repr.reprEntries es = .ok (es.map fun e => fieldText (shownEntry e)) := by
  induction es with
  | nil => rfl
  | cons e es ih =>
    obtain ⟨hkey, hkeys'⟩ := List.forall_mem_cons.1 hkeys
    obtain ⟨⟨shown, hshown⟩, hvalues'⟩ := List.forall_mem_cons.1 hvalues
    obtain ⟨k, v⟩ := e
    cases k with
    | text t =>
      have hfirst : fieldText (shownEntry (.text t, v)) = Text.quoted t.content ++ ": " ++ shown := by
        simp only [fieldText, shownEntry, textKey, hshown]
        rfl
      rw [Value.repr.reprEntries, hshown, ih hkeys' hvalues', List.map_cons, hfirst]
      rfl
    | _ => cases hkey

/-- The entries of a mapping in order show it. -/
theorem showsAs_of_rising (hkeys : HaveTextKeys f.entries)
    (hvalues : ∀ e ∈ f.entries, ∃ shown, e.2.repr = .ok shown) (hperm : sorted.Perm f.entries)
    (hrising : Rising textKey sorted) : f.ShowsAs (sorted.map shownEntry) where
  rising := List.pairwise_map.2 hrising
  mem_iff k shown := by
    have hkey : ∀ e ∈ f.entries, e.1.SameKey (.str k) ↔ textKey e = k := fun e he => by
      rw [Value.SameKey, keyForm_of_isText (hkeys e he)]
      simp [Value.str, Value.keyForm]
    constructor
    · intro hmem
      obtain ⟨e, he, heq⟩ := List.mem_map.1 hmem
      obtain ⟨rfl, hshown⟩ := Prod.ext_iff.1 heq
      have he := hperm.subset he
      obtain ⟨text, htext⟩ := hvalues e he
      have hget : f.get? (.str (textKey e)) = some e.2 :=
        (findEntry_eq_some_iff f.distinct).2 ⟨e, he, (hkey e he).2 rfl, rfl⟩
      have hsame : text = shown := by simpa [shownEntry, htext, Except.toOption] using hshown
      simp [shownEntry, hget, htext, hsame]
    · intro hget
      obtain ⟨v, hv, hshown⟩ := Option.map_eq_some_iff.1 hget
      obtain ⟨e, he, hk, rfl⟩ := (findEntry_eq_some_iff f.distinct).1 hv
      refine List.mem_map.2 ⟨e, hperm.symm.subset he, ?_⟩
      simp [shownEntry, (hkey e he).1 hk, hshown, Except.toOption]

/-! ## The line -/

theorem isEmpty_of_perm (hperm : sorted.Perm f.entries) : sorted.isEmpty = f.isEmpty := by
  rw [Fields.isEmpty, Bool.eq_iff_iff, List.isEmpty_iff, List.isEmpty_iff]
  exact ⟨fun h => List.nil_perm.1 (h ▸ hperm), fun h => List.perm_nil.1 (h ▸ hperm)⟩

/-- Once the fields are in order, it depends on their representation alone whether there is a line. -/
theorem formatLine_sorted (hsorted : f.sorted = .ok sorted) (hperm : sorted.Perm f.entries) (l : Level) (msg : Text) :
    formatLine (.level l) (.fields f) (.text msg) =
      if sorted.isEmpty then .ok (lineOf l msg [])
      else do return "[" ++ l.name ++ "] " ++ msg.display ++ " " ++ (← Value.reprDict sorted) ++ "\n" := by
  have hpresent : (Supplied.fields f).isPresent = !f.isEmpty := rfl
  rw [formatLine, hpresent, isEmpty_of_perm hperm]
  cases f.isEmpty with
  | true =>
    simp only [lineOf, entryText, shownFields, List.isEmpty_nil, if_true, String.append_empty]
    rfl
  | false =>
    rw [Bool.not_false, Bool.not_true, if_neg Bool.false_ne_true]
    dsimp only [Supplied.mapping, bind, Except.bind]
    rw [hsorted]
    rfl

/-- A mapping with texts as keys, whose values have representations, has a line. -/
theorem formatLine_shown (hkeys : HaveTextKeys f.entries) (hvalues : ∀ e ∈ f.entries, ∃ shown, e.2.repr = .ok shown) :
    ∃ es, f.ShowsAs es ∧ ∀ l msg, formatLine (.level l) (.fields f) (.text msg) = .ok (lineOf l msg es) := by
  obtain ⟨sorted, hsorted, hperm, hrising⟩ := sorted_texts hkeys
  refine ⟨sorted.map shownEntry, showsAs_of_rising hkeys hvalues hperm hrising, fun l msg => ?_⟩
  have hdict : Value.reprDict sorted =
      .ok ("\x7b" ++ ", ".intercalate ((sorted.map shownEntry).map fieldText) ++ "\x7d") := by
    rw [Value.reprDict, Value.repr, reprEntries_shown (hkeys.perm hperm) fun e he => hvalues e (hperm.subset he),
      List.map_map]
    rfl
  rw [formatLine_sorted hsorted hperm, hdict]
  simp only [lineOf, entryText, shownFields, List.isEmpty_map]
  cases sorted.isEmpty with
  | true => rfl
  | false =>
    rw [if_neg Bool.false_ne_true, if_neg Bool.false_ne_true, ← String.append_assoc]
    rfl

/-- Mappings with texts as keys, whose values are represented alike under each key, have the same line, whatever the
level and the message are and in whatever order their keys were set. It shows each field once, in rising order of the
keys; and no two values are compared on the way to it, for every order that goes by the keys comes to it. -/
theorem lines_agree (hf : HaveTextKeys f.entries) (hg : HaveTextKeys g.entries)
    (hvalues : ∀ e ∈ f.entries, ∃ shown, e.2.repr = .ok shown)
    (hsame : ∀ k, (f.get? k).map Value.repr = (g.get? k).map Value.repr) :
    ∃ es, f.ShowsAs es ∧ g.ShowsAs es ∧
      (∀ l msg, formatLine (.level l) (.fields f) (.text msg) = .ok (lineOf l msg es) ∧
        formatLine (.level l) (.fields g) (.text msg) = .ok (lineOf l msg es)) ∧
      ∀ less, GoesByKeys less → sortEntries less f.entries = f.sorted ∧ sortEntries less g.entries = g.sorted := by
  have hvalues' : ∀ e ∈ g.entries, ∃ shown, e.2.repr = .ok shown := by
    intro e he
    have hget : (g.get? e.1).map Value.repr = some e.2.repr := by
      rw [Fields.get?, findEntry_of_mem g.distinct he]
      rfl
    rw [← hsame] at hget
    obtain ⟨v, hv, hrepr⟩ := Option.map_eq_some_iff.1 hget
    obtain ⟨e', he', -, rfl⟩ := (findEntry_eq_some_iff f.distinct).1 hv
    rw [← hrepr]
    exact hvalues e' he'
  obtain ⟨es, hshows, hline⟩ := formatLine_shown hf hvalues
  obtain ⟨es', hshows', hline'⟩ := formatLine_shown hg hvalues'
  obtain rfl : es = es' := hshows.unique hshows' hsame
  refine ⟨es, hshows, hshows', fun l msg => ⟨hline l msg, hline' l msg⟩, fun less hless => ?_⟩
  exact ⟨sorted_of_goesByKeys hless f, sorted_of_goesByKeys hless g⟩

/-- Fields of kinds that have no order between them. -/
def unlike : List FieldEntry :=
  [(.str "size", .int 2), (.str "city", .str "Austin"), (.str "tags", .list [.none, .str "a"]), (.str "Zip", .none)]

/-- They have the same line backwards. -/
theorem lines_agree_unlike :
    ∃ es, (Fields.ofList unlike).ShowsAs es ∧ (Fields.ofList unlike.reverse).ShowsAs es ∧
      (∀ l msg, formatLine (.level l) (.fields (.ofList unlike)) (.text msg) = .ok (lineOf l msg es) ∧
        formatLine (.level l) (.fields (.ofList unlike.reverse)) (.text msg) = .ok (lineOf l msg es)) ∧
      ∀ less, GoesByKeys less → sortEntries less (Fields.ofList unlike).entries = (Fields.ofList unlike).sorted ∧
        sortEntries less (Fields.ofList unlike.reverse).entries = (Fields.ofList unlike.reverse).sorted := by
  have hentries : (Fields.ofList unlike).entries = unlike := rfl
  have hreverse : (Fields.ofList unlike.reverse).entries = unlike.reverse := rfl
  have hkeys : HaveTextKeys unlike := by simp [HaveTextKeys, unlike, Value.str, Value.isText]
  have hvalues : ∀ e ∈ unlike, ∃ shown, e.2.repr = .ok shown := by
    simp only [unlike, List.forall_mem_cons]
    exact ⟨⟨_, rfl⟩, ⟨_, rfl⟩, ⟨_, rfl⟩, ⟨_, rfl⟩, nofun⟩
  have hsame : ∀ k, (Fields.ofList unlike).get? k = (Fields.ofList unlike.reverse).get? k := fun k =>
    findEntry_perm (hentries ▸ hreverse ▸ unlike.reverse_perm.symm) (Fields.ofList unlike).distinct k
  exact lines_agree (hentries ▸ hkeys) (hreverse ▸ hkeys.perm unlike.reverse_perm) (hentries ▸ hvalues) fun k => by
    rw [hsame]

/-! ## Equal values -/

/-- Are two values equal? Lists and tuples are equal item by item, mappings key by key in whatever order, and records of
one kind member by member; other values if they are the same key. -/
def Value.equals : Value → Value → Bool
  | .list xs, .list ys => equalItems xs ys
  | .tuple xs, .tuple ys => equalItems xs ys
  | .dict es, .dict es' => es.length = es'.length && equalEntries es es'
  | .record name members, .record name' members' => name = name' && equalMembers members members'
  | v, w => v.mutableType?.isNone && w.mutableType?.isNone && v.keyForm = w.keyForm
where
  equalItems : List Value → List Value → Bool
    | [], [] => true
    | v :: vs, w :: ws => v.equals w && equalItems vs ws
    | _, _ => false
  equalEntries : List (Value × Value) → List (Value × Value) → Bool
    | [], _ => true
    | (k, v) :: rest, es => ((findEntry k es).map v.equals).getD false && equalEntries rest es
  equalMembers : List (String × Value) → List (String × Value) → Bool
    | [], [] => true
    | (name, v) :: rest, (name', w) :: rest' => name = name' && v.equals w && equalMembers rest rest'
    | _, _ => false

/-- A mapping with one field, a point whose coordinates were set in the order of these names. -/
def pointAt (first second : String) : Fields :=
  .ofList [(.str "at", .dict [(.str first, .int 1), (.str second, .int 1)])]

/-- Two of them that are equal have different lines, for the points in them show their own orders. -/
theorem lines_of_equal_mappings :
    HaveTextKeys (pointAt "x" "y").entries ∧ HaveTextKeys (pointAt "y" "x").entries ∧
      (pointAt "x" "y").toValue.equals (pointAt "y" "x").toValue ∧
      formatLine (.level .info) (.fields (pointAt "x" "y")) (.str "m") =
        .ok "[INFO] m \x7b'at': \x7b'x': 1, 'y': 1\x7d\x7d\n" ∧
      formatLine (.level .info) (.fields (pointAt "y" "x")) (.str "m") =
        .ok "[INFO] m \x7b'at': \x7b'y': 1, 'x': 1\x7d\x7d\n" := by
  have hkeys : ∀ first second, HaveTextKeys (pointAt first second).entries := by
    intro first second e he
    obtain rfl := List.mem_singleton.1 he
    rfl
  exact ⟨hkeys _ _, hkeys _ _, by decide +kernel, rfl, rfl⟩

end ContextLog
