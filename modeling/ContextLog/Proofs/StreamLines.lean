import Mathlib.Data.List.ReduceOption
import ContextLog.Proofs.Lines
import ContextLog.Proofs.Printable
import ContextLog.Proofs.Receive
import ContextLog.Proofs.ScalarArguments
/-!
# The lines on a stream

Entries with simple values that are appended to an empty stream leave their lines on it, one behind the other, and
nothing else (`stream_lines`). The fields of an entry are shown by printable characters, so they stay within its line
whatever texts are among them. The message is written as it is, though: an entry takes up as many lines as its message
does, and the text of one entry can be that of two (`line_forged`).
-/

namespace ContextLog

open Fields Text

/-- An entry, with what an appender is handed of it. -/
structure Post where
  context : Option ContextRef
  level : Level
  fields : Handle
  msg : Text

/-- Hands the entry to an appender. -/
def Post.append (p : Post) (r : AppenderRef) : Session Unit :=
  ContextLog.append r p.context (.level p.level) p.fields (.text p.msg)

/-- Fields with texts as keys and with simple values. -/
def Supplied.IsSimple : Supplied → Prop
  | .fields f => HaveTextKeys f.entries ∧ ∀ e ∈ f.entries, e.2.IsScalar
  | _ => False

theorem Supplied.isSimple_empty : (fields .empty).IsSimple := ⟨List.forall_mem_nil _, List.forall_mem_nil _⟩

/-- One of the fields is too long a number. -/
def Supplied.HoldsLong : Supplied → Prop
  | .fields f => ∃ e ∈ f.entries, ∃ n, e.2 = .int n ∧ IsLong n
  | _ => False

namespace Store

/-- The text on the stream to which an appender writes lines, if it writes to one. -/
def streamText? (s : Store) (r : AppenderRef) : Option String :=
  match s.appender r with
  | .stream text => some text
  | .console => s.stdout.map (·.text)
  | _ => none

/-- The line of an entry, with what its fields hold at the moment. -/
def rendering (s : Store) (p : Post) : Except Failure String :=
  formatLine (.level p.level) (s.supplied p.fields) (.text p.msg)

/-- The store after entries were handed to an appender, one after another. A caller goes on behind one that fails. -/
def posted (r : AppenderRef) (s : Store) (posts : List Post) : Store :=
  posts.foldl (fun s p => (p.append r).leaves s) s

/-- How each of the calls ends. -/
def outcomes (r : AppenderRef) : Store → List Post → List (Except Failure Unit)
  | _, [] => []
  | s, p :: posts => (p.append r).outcome s :: outcomes r ((p.append r).leaves s) posts

end Store

variable {s s' : Store} {r : AppenderRef} {p : Post} {posts : List Post} {text : String} {f : Fields}
  {es : List (String × String)} {v : Value} {l : Level} {msg : Text}

/-! ## One entry on a stream -/

theorem Store.supplied_congr (h : s'.mappings = s.mappings) (fields : Handle) :
    s'.supplied fields = s.supplied fields := by
  cases fields with
  | live m => exact congrArg Supplied.fields (by rw [mapping, h]; rfl)
  | _ => rfl

/-- An appender that writes to a stream makes the line first, and what it then writes is the line. -/
theorem receive_writes (hr : s.streamText? r = some text) (ctx : Option ContextRef) (level : Value) (fields : Handle)
    (msg : Value) :
    ∃ write : String → Session Unit,
      receive r ctx level fields msg s = (do write (← Session.lift (formatLine level (s.supplied fields) msg))) s ∧
        ∀ line, ∃ s', write line s = .ok () s' ∧ s'.streamText? r = some (text ++ line) ∧ s'.mappings = s.mappings := by
  unfold Store.streamText? at hr
  unfold receive
  rw [Session.run_bind_ok Session.run_get]
  cases happ : s.appender r with
  | stream before =>
    rw [happ] at hr
    cases hr
    refine ⟨fun line => Session.setAppender r (.stream (text ++ line)), rfl, fun line => ⟨_, rfl, ?_, rfl⟩⟩
    rw [Store.streamText?, appender_received (by rw [happ]; nofun)]
  | console =>
    rw [happ] at hr
    obtain ⟨channel, hout, rfl⟩ := Option.map_eq_some_iff.1 hr
    dsimp only
    rw [hout]
    let printed (line : String) : Store := { s with stdout := some { channel with text := channel.text ++ line } }
    have hconsole : ∀ line, (printed line).appender r = .console := fun _ => happ
    refine ⟨fun line => set (printed line), rfl, fun line => ⟨printed line, rfl, ?_, rfl⟩⟩
    rw [Store.streamText?, hconsole]
    rfl
  | _ =>
    rw [happ] at hr
    cases hr

/-- An entry that has a line adds it to the stream, and one without is refused. Neither changes any fields. -/
theorem append_written (hr : s.streamText? r = some text) (p : Post) :
    (p.append r).outcome s = (s.rendering p).map (fun _ => ()) ∧
      ((p.append r).leaves s).streamText? r = some (text ++ (s.rendering p).toOption.getD "") ∧
      ((p.append r).leaves s).mappings = s.mappings := by
  -- What is noted of the call changes neither the stream nor the fields.
  obtain ⟨s₁, hrun, htext, hmappings⟩ : ∃ s₁ : Store,
      p.append r s = receive r p.context (.level p.level) p.fields (.text p.msg) s₁ ∧
        s₁.streamText? r = s.streamText? r ∧ s₁.mappings = s.mappings :=
    ⟨{ s with deliveries := s.deliveries ++ [⟨r, p.context, .level p.level, s.supplied p.fields, .text p.msg⟩] },
      rfl, rfl, rfl⟩
  rw [← htext] at hr
  obtain ⟨write, hreceive, hwrite⟩ := receive_writes hr p.context (.level p.level) p.fields (.text p.msg)
  have hline : formatLine (.level p.level) (s₁.supplied p.fields) (.text p.msg) = s.rendering p := by
    rw [Store.supplied_congr hmappings, Store.rendering]
  rw [hline] at hreceive
  have happend := hrun.trans hreceive
  cases hrendering : s.rendering p with
  | ok line =>
    obtain ⟨s₂, hwritten, htext₂, hmappings₂⟩ := hwrite line
    rw [hrendering, Session.run_bind_ok (Session.run_lift_ok line)] at happend
    rw [Session.outcome_ok (happend.trans hwritten), Session.leaves_ok (happend.trans hwritten)]
    exact ⟨rfl, htext₂, hmappings₂.trans hmappings⟩
  | error e =>
    rw [hrendering, Session.run_bind_error (Session.run_lift_error e)] at happend
    rw [Session.outcome_error happend, Session.leaves_error happend, hr]
    exact ⟨rfl, congrArg some String.append_empty.symm, hmappings⟩

theorem Store.rendering_congr (h : s'.mappings = s.mappings) (p : Post) : s'.rendering p = s.rendering p := by
  rw [rendering, supplied_congr h, rendering]

/-! ## A run of entries -/

/-- Entries are written one behind the other, and each is refused by itself. -/
theorem posted_written (hr : s.streamText? r = some text) (posts : List Post) :
    s.outcomes r posts = posts.map (fun p => (s.rendering p).map fun _ => ()) ∧
      (s.posted r posts).streamText? r =
        some (text ++ String.join (posts.map fun p => (s.rendering p).toOption.getD "")) := by
  induction posts generalizing s text with
  | nil => exact ⟨rfl, hr.trans (congrArg some String.append_empty.symm)⟩
  | cons p posts ih =>
    obtain ⟨houtcome, htext, hmappings⟩ := append_written hr p
    obtain ⟨houtcomes, htexts⟩ := ih htext
    simp only [Store.rendering_congr hmappings] at houtcomes htexts
    constructor
    · rw [Store.outcomes, houtcome, houtcomes, List.map_cons]
    · rw [List.map_cons, String.join_cons, ← String.append_assoc]
      exact htexts

/-! ## What an entry comes to -/

theorem Value.IsScalar.repr_ok (hv : v.IsScalar) (hshort : ∀ n, v = .int n → ¬ IsLong n) :
    ∃ shown, v.repr = .ok shown := by
  cases v with
  | int n =>
    cases htext : wholeText n with
    | ok shown => exact ⟨shown, htext⟩
    | error e =>
      obtain ⟨-, n', heq, hlong⟩ := hv.shown_error (v := .int n) htext
      exact absurd hlong (hshort n' heq)
  | none => exact ⟨_, rfl⟩
  | bool b => exact ⟨_, rfl⟩
  | float x => exact ⟨_, rfl⟩
  | text t => exact ⟨_, rfl⟩
  | _ => exact hv.elim

theorem Value.IsScalar.repr_allPrintable {shown : String} (hv : v.IsScalar) (h : v.repr = .ok shown) :
    AllPrintable shown := by
  cases v with
  | int n => exact wholeText_allPrintable h
  | none =>
    cases h
    decide
  | bool b =>
    cases h
    cases b
    · decide
    · decide
  | float x =>
    cases h
    exact x.text_allPrintable
  | text t =>
    cases h
    exact quoted_allPrintable _
  | _ => exact hv.elim

/-- Simple values are shown by printable characters, and so are the keys, whatever texts these are. -/
theorem shownFields_allPrintable (hscalars : ∀ e ∈ f.entries, e.2.IsScalar) (hshows : f.ShowsAs es) :
    AllPrintable (shownFields es) := by
  have hfields : ∀ field ∈ es.map fieldText, AllPrintable field := by
    intro field hfield
    obtain ⟨⟨k, shown⟩, hmem, rfl⟩ := List.mem_map.1 hfield
    obtain ⟨v, hget, hrepr⟩ := Option.map_eq_some_iff.1 ((hshows.mem_iff k shown).1 hmem)
    obtain ⟨e, he, -, rfl⟩ := (findEntry_eq_some_iff f.distinct).1 hget
    exact ((quoted_allPrintable k).append (by decide)).append ((hscalars e he).repr_allPrintable hrepr)
  unfold shownFields
  split
  · decide
  · refine .append (by decide) (.append (.append (by decide) ?_) (by decide))
    exact .intercalate (by decide) hfields

/-- A mapping is represented only if all of its values are. -/
theorem reprEntries_ok {entries : List FieldEntry} {texts : List String}
    (h : Value.repr.reprEntries entries = .ok texts) : ∀ e ∈ entries, ∃ shown, e.2.repr = .ok shown := by
  induction entries generalizing texts with
  | nil => exact nofun
  | cons e entries ih =>
    rw [Value.repr.reprEntries] at h
    obtain ⟨key, -, h⟩ := ok_of_bind h
    obtain ⟨value, hvalue, h⟩ := ok_of_bind h
    obtain ⟨rest, hrest, -⟩ := ok_of_bind h
    exact List.forall_mem_cons.2 ⟨⟨value, hvalue⟩, ih hrest⟩

/-- There is no line for fields of which one is too long a number. -/
theorem formatLine_long (hkeys : HaveTextKeys f.entries) {e : FieldEntry} {n : Int} (he : e ∈ f.entries)
    (hn : e.2 = .int n) (hlong : IsLong n) (l : Level) (msg : Text) :
    formatLine (.level l) (.fields f) (.text msg) = .error .numeralTooLong := by
  obtain ⟨sorted, hsorted, hperm, -⟩ := sorted_texts hkeys
  have hmem : e ∈ sorted := hperm.symm.subset he
  have hdict : Value.reprDict sorted = .error .numeralTooLong := by
    cases h : Value.reprDict sorted with
    | error failure => exact congrArg Except.error (Value.repr_error _ h)
    | ok text =>
      rw [Value.reprDict, Value.repr] at h
      obtain ⟨texts, htexts, -⟩ := ok_of_bind h
      obtain ⟨shown, hshown⟩ := reprEntries_ok htexts e hmem
      rw [hn, Value.repr, wholeText_tooLong hlong] at hshown
      cases hshown
  have hne : sorted.isEmpty = false := List.isEmpty_eq_false_iff.2 (List.ne_nil_of_mem hmem)
  rw [formatLine_sorted hsorted hperm, hne, hdict]
  rfl

/-- What becomes of an entry on a stream. -/
inductive Post.Writes (s : Store) (p : Post) : Option String → Prop
  /-- It has a line, with each of its fields once and by printable characters. -/
  | line {f : Fields} {es : List (String × String)} (hfields : s.supplied p.fields = .fields f)
      (hshort : ¬ (s.supplied p.fields).HoldsLong) (hshows : f.ShowsAs es) (hprintable : AllPrintable (shownFields es))
      (hline : s.rendering p = .ok (lineOf p.level p.msg es)) : Writes s p (some (entryText p.level p.msg es))
  /-- It is refused, for one of its fields is too long a number. -/
  | refused (hlong : (s.supplied p.fields).HoldsLong) (herror : s.rendering p = .error .numeralTooLong) :
      Writes s p none

/-- An entry with simple values is written unless one of them is too long a number. -/
theorem Post.writes (hp : (s.supplied p.fields).IsSimple) : ∃ entry, p.Writes s entry := by
  cases hfields : s.supplied p.fields with
  | fields f =>
    rw [hfields] at hp
    obtain ⟨hkeys, hscalars⟩ := hp
    by_cases hlong : (s.supplied p.fields).HoldsLong
    · refine ⟨none, .refused hlong ?_⟩
      rw [hfields] at hlong
      obtain ⟨e, he, n, hn, hlong⟩ := hlong
      rw [Store.rendering, hfields]
      exact formatLine_long hkeys he hn hlong p.level p.msg
    · have hvalues : ∀ e ∈ f.entries, ∃ shown, e.2.repr = .ok shown := fun e he =>
        (hscalars e he).repr_ok fun n hn hl => hlong (hfields ▸ ⟨e, he, n, hn, hl⟩)
      obtain ⟨es, hshows, hline⟩ := formatLine_shown hkeys hvalues
      refine ⟨_, .line hfields hlong hshows (shownFields_allPrintable hscalars hshows) ?_⟩
      rw [Store.rendering, hfields, hline]
  | _ =>
    rw [hfields] at hp
    exact hp.elim

namespace Post.Writes

variable {entry : Option String}

theorem outcome (h : p.Writes s entry) :
    (s.rendering p).map (fun _ => ()) = if entry.isSome then .ok () else .error .numeralTooLong := by
  cases h with
  | line _ _ _ _ hline => rw [hline]; rfl
  | refused _ herror => rw [herror]; rfl

theorem isSome_iff (h : p.Writes s entry) : entry.isSome ↔ ¬ (s.supplied p.fields).HoldsLong := by
  cases h with
  | line _ hshort _ _ _ => exact ⟨fun _ => hshort, fun _ => rfl⟩
  | refused hlong _ => exact ⟨nofun, fun hshort => absurd hlong hshort⟩

/-- A line has the line ends of its message, and no other one but at its end. -/
theorem count_eq {body : String} (h : p.Writes s (some body)) :
    body.toList.count '\n' = p.msg.display.toList.count '\n' := by
  cases h with
  | line _ _ _ hprintable _ =>
    have hnone : ∀ {t : String}, AllPrintable t → t.toList.count '\n' = 0 := fun ht =>
      List.count_eq_zero.2 (ht.not_mem (by decide))
    have hname : AllPrintable p.level.name := by cases p.level <;> decide
    rw [entryText, String.toList_append, List.count_append, hnone hprintable, String.toList_append, List.count_append,
      hnone ((AllPrintable.append (by decide) hname).append (by decide))]
    omega

end Post.Writes

/-! ## The lines of entries -/

/-- Texts as lines, one behind the other. -/
def joinLines (texts : List String) : String := String.join (texts.map (· ++ "\n"))

theorem toList_joinLines_cons (t : String) (texts : List String) :
    (joinLines (t :: texts)).toList = t.toList ++ '\n' :: (joinLines texts).toList := by
  rw [joinLines, List.map_cons, String.join_cons, String.toList_append, String.toList_append, List.append_assoc]
  rfl

theorem count_joinLines (texts : List String) :
    (joinLines texts).toList.count '\n' = texts.length + (texts.map (·.toList.count '\n')).sum := by
  induction texts with
  | nil => rfl
  | cons t texts ih =>
    rw [toList_joinLines_cons, List.count_append, List.count_cons_self, ih, List.length_cons, List.map_cons,
      List.sum_cons]
    omega

/-- Lines are read back if there are no line ends in them. -/
theorem splitOn_joinLines {texts : List String} (h : ∀ t ∈ texts, '\n' ∉ t.toList) :
    (joinLines texts).toList.splitOn '\n' = texts.map (·.toList) ++ [[]] := by
  induction texts with
  | nil => exact List.splitOn_nil '\n'
  | cons t texts ih =>
    obtain ⟨ht, htexts⟩ := List.forall_mem_cons.1 h
    rw [toList_joinLines_cons, List.splitOn_append_cons_self, List.splitOn_eq_singleton ht, ih htexts, List.map_cons]
    rfl

section entries

variable {entries : List (Option String)} (h : List.Forall₂ (fun p entry => p.Writes s entry) posts entries)

include h

theorem join_renderings :
    String.join (posts.map fun p => (s.rendering p).toOption.getD "") = joinLines entries.reduceOption := by
  induction h with
  | nil => rfl
  | cons hentry _ ih =>
    rw [List.map_cons, String.join_cons, ih]
    cases hentry with
    | line _ _ _ _ hline =>
      rw [hline, List.reduceOption_cons_of_some, joinLines, joinLines, List.map_cons, String.join_cons]
      rfl
    | refused _ herror =>
      rw [herror, List.reduceOption_cons_of_none]
      exact String.empty_append

theorem outcomes_of_writes : posts.map (fun p => (s.rendering p).map fun _ => ()) =
    entries.map fun entry => if entry.isSome then .ok () else .error .numeralTooLong := by
  induction h with
  | nil => rfl
  | cons hentry _ ih => rw [List.map_cons, List.map_cons, ih, hentry.outcome]

/-- Entries that are all written have the line ends of their messages. -/
theorem counts_of_writes (hshort : ∀ p ∈ posts, ¬ (s.supplied p.fields).HoldsLong) :
    entries.reduceOption.map (·.toList.count '\n') = posts.map fun p => p.msg.display.toList.count '\n' := by
  induction h with
  | nil => rfl
  | @cons p entry posts entries hentry _ ih =>
    obtain ⟨hp, hposts⟩ := List.forall_mem_cons.1 hshort
    obtain ⟨body, rfl⟩ := Option.isSome_iff_exists.1 (hentry.isSome_iff.2 hp)
    rw [List.reduceOption_cons_of_some, List.map_cons, List.map_cons, hentry.count_eq, ih hposts]

theorem not_mem_of_writes (hmsg : ∀ p ∈ posts, '\n' ∉ p.msg.display.toList) :
    ∀ body ∈ entries.reduceOption, '\n' ∉ body.toList := by
  induction h with
  | nil => exact nofun
  | @cons p entry posts entries hentry _ ih =>
    obtain ⟨hp, hposts⟩ := List.forall_mem_cons.1 hmsg
    cases entry with
    | none => exact ih hposts
    | some body =>
      refine List.forall_mem_cons.2 ⟨List.count_eq_zero.1 ?_, ih hposts⟩
      rw [hentry.count_eq]
      exact List.count_eq_zero.2 hp

end entries

/-- What entries leave on a stream that was empty. -/
structure WritesLines (s : Store) (r : AppenderRef) (posts : List Post) (entries : List (Option String)) : Prop where
  /-- Each of them is written or refused, whatever the others are, -/
  writes : List.Forall₂ (fun p entry => p.Writes s entry) posts entries
  outcomes : s.outcomes r posts = entries.map fun entry => if entry.isSome then .ok () else .error .numeralTooLong
  /-- and those that are written are the text on the stream, each ended as a line. -/
  text : (s.posted r posts).streamText? r = some (joinLines entries.reduceOption)
  /-- Without line ends in the messages these are the lines of the text, in the order of the entries. -/
  inOrder : (∀ p ∈ posts, '\n' ∉ p.msg.display.toList) →
    (joinLines entries.reduceOption).toList.splitOn '\n' = entries.reduceOption.map (·.toList) ++ [[]]
  /-- If no number is too long, there is a line for each entry and one for each line end in a message. -/
  count : (∀ p ∈ posts, ¬ (s.supplied p.fields).HoldsLong) → (joinLines entries.reduceOption).toList.count '\n' =
    posts.length + (posts.map fun p => p.msg.display.toList.count '\n').sum
  /-- So there are as many lines as entries only if no message has a line end in it. -/
  oneEach : (∀ p ∈ posts, ¬ (s.supplied p.fields).HoldsLong) →
    ((joinLines entries.reduceOption).toList.count '\n' = posts.length ↔ ∀ p ∈ posts, '\n' ∉ p.msg.display.toList)

/-- Entries with simple values that are appended to an empty stream are its lines, as far as their messages have no line
ends in them and no number is too long. -/
theorem stream_lines (hr : s.streamText? r = some "") (hs : ∀ p ∈ posts, (s.supplied p.fields).IsSimple) :
    ∃ entries, WritesLines s r posts entries := by
  obtain ⟨entries, hwrites⟩ : ∃ entries, List.Forall₂ (fun p entry => p.Writes s entry) posts entries := by
    induction posts with
    | nil => exact ⟨[], .nil⟩
    | cons p posts ih =>
      obtain ⟨hp, hposts⟩ := List.forall_mem_cons.1 hs
      obtain ⟨entry, hentry⟩ := p.writes hp
      obtain ⟨entries, hentries⟩ := ih hposts
      exact ⟨entry :: entries, .cons hentry hentries⟩
  obtain ⟨houtcomes, htext⟩ := posted_written hr posts
  have hcount : (∀ p ∈ posts, ¬ (s.supplied p.fields).HoldsLong) → (joinLines entries.reduceOption).toList.count '\n' =
      posts.length + (posts.map fun p => p.msg.display.toList.count '\n').sum := by
    intro hshort
    have hcounts := counts_of_writes hwrites hshort
    have hlength := congrArg List.length hcounts
    rw [List.length_map, List.length_map] at hlength
    rw [count_joinLines, hcounts, hlength]
  refine ⟨entries, hwrites, houtcomes.trans (outcomes_of_writes hwrites), ?_, ?_, hcount, fun hshort => ?_⟩
  · rw [htext, String.empty_append, join_renderings hwrites]
  · exact fun hmsg => splitOn_joinLines (not_mem_of_writes hwrites hmsg)
  · rw [hcount hshort, Nat.add_eq_left, List.sum_eq_zero_iff_forall_eq_nat, List.forall_mem_map]
    exact forall₂_congr fun p _ => List.count_eq_zero

/-- A store with an empty stream, and with a mapping of values of all simple kinds, texts with line ends among them. -/
def streaming : Store where
  appenders := [.stream ""]
  mappings := [.ofList [(.str "to\n", .str "Bob\n[ERROR] gone"), (.str "size", .int 2), (.str "done", .bool true),
    (.str "left", .none), (.str "ratio", .float (.infinity true))]]

/-- Two entries, of which one has these fields. -/
def greetings : List Post :=
  [⟨none, .info, .live ⟨0⟩, .ofString "Hello Alice"⟩, ⟨none, .error, .vacant, .ofString "Hello Bob"⟩]

theorem stream_lines_greetings :
    streaming.streamText? ⟨0⟩ = some "" ∧ (∀ p ∈ greetings, (streaming.supplied p.fields).IsSimple) ∧
      ∃ entries, WritesLines streaming ⟨0⟩ greetings entries := by
  have hfields : (streaming.supplied (.live ⟨0⟩)).IsSimple := by
    show (∀ e ∈ (streaming.mapping ⟨0⟩).entries, e.1.isText) ∧ ∀ e ∈ (streaming.mapping ⟨0⟩).entries, e.2.IsScalar
    have hentries : (streaming.mapping ⟨0⟩).entries = [(.str "to\n", .str "Bob\n[ERROR] gone"), (.str "size", .int 2),
      (.str "done", .bool true), (.str "left", .none), (.str "ratio", .float (.infinity true))] := rfl
    rw [hentries]
    simp [Value.str, Value.isText, Value.IsScalar]
  have hs : ∀ p ∈ greetings, (streaming.supplied p.fields).IsSimple :=
    List.forall_mem_cons.2 ⟨hfields, List.forall_mem_singleton.2 Supplied.isSimple_empty⟩
  exact ⟨rfl, hs, stream_lines rfl hs⟩

/-- An entry whose message goes on as if another entry began. -/
def forging : Post := ⟨none, .info, .vacant, .ofString "a\n[ERROR] b"⟩

/-- It leaves the text of two entries, and two lines. -/
theorem line_forged :
    streaming.streamText? ⟨0⟩ = some "" ∧ (∀ p ∈ [forging], (streaming.supplied p.fields).IsSimple) ∧
      (streaming.posted ⟨0⟩ [forging]).streamText? ⟨0⟩ = some "[INFO] a\n[ERROR] b\n" ∧
      "[INFO] a\n[ERROR] b\n".toList.count '\n' ≠ [forging].length ∧
      (streaming.posted ⟨0⟩ [⟨none, .info, .vacant, .ofString "a"⟩, ⟨none, .error, .vacant, .ofString "b"⟩]).streamText?
        ⟨0⟩ = some "[INFO] a\n[ERROR] b\n" := by
  exact ⟨rfl, List.forall_mem_singleton.2 Supplied.isSimple_empty, rfl, by decide, rfl⟩

end ContextLog
