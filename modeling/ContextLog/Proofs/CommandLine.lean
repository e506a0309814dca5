import ContextLog.Proofs.Restoring
import ContextLog.Proofs.Reading
import ContextLog.Proofs.Coercion
import ContextLog.Proofs.TextArguments
import ContextLog.Proofs.Threshold
/-!
# Entries from the command line

The command that sends an entry does what a call of the library does. Pairs that are none are refused first,
also if the entry would be filtered; an entry below the threshold is dropped; any other one is one line on
the standard output, and its level decides the exit code. Nothing else can go wrong (`emit_prints`), for any
parser that reads options as they are written and any tools that map the outcomes of runs to exit codes.
-/

namespace ContextLog

namespace CommandLine

open Template

/-! ## Pairs -/

/-- A pair that is none: there is no equals sign, or nothing in front of the first one. -/
def IsBadPair (pair : String) : Prop := '=' ∉ pair.toList ∨ pair.toList.head? = some '='

/-- A key and a value that can be given as a pair. -/
def IsGood (kv : String × String) : Prop := kv.1 ≠ "" ∧ '=' ∉ kv.1.toList

/-- The fields that a list of pairs stands for. A key that is given again has its last value. -/
def AreFields (pairs : List String) (f : Fields) : Prop :=
  ∃ kvs : List (String × String), pairs = kvs.map (fun kv => kv.1 ++ "=" ++ kv.2) ∧ (∀ kv ∈ kvs, IsGood kv) ∧
    f = .ofList (kvs.map fun kv => (.str kv.1, .str kv.2)) ∧
    ∀ key, f.get? (.str key) = ((kvs.filter (·.1 = key)).getLast?).map fun kv => .str kv.2

theorem splitAtEquals_of_not_mem {cs : List Char} (h : '=' ∉ cs) : splitAtEquals cs = (cs, none) := by
  have hother : ∀ c ∈ cs, decide (c ≠ '=') = true := fun c hc =>
    decide_eq_true fun he => h (he ▸ hc)
  have hnone : (cs ++ []).dropWhile (· ≠ '=') = [] := List.dropWhile_append_of_pos hother
  rw [List.append_nil] at hnone
  unfold splitAtEquals
  rw [hnone]

theorem splitAtEquals_append {key : List Char} (h : '=' ∉ key) (value : List Char) :
    splitAtEquals (key ++ '=' :: value) = (key, some value) := by
  have hother : ∀ c ∈ key, decide (c ≠ '=') = true := fun c hc =>
    decide_eq_true fun he => h (he ▸ hc)
  unfold splitAtEquals
  rw [List.dropWhile_append_of_pos hother, List.takeWhile_append_of_pos hother]
  simp

/-- How a pair that is none is refused. -/
def notAPair (pair : String) : UsageFault :=
  .badParameter ("expected KEY=VALUE, got " ++ Text.quoted pair) (some "--field")

theorem readPair_bad {pair : String} (h : IsBadPair pair) : readPair pair = .error (notAPair pair) := by
  unfold readPair
  by_cases hmem : '=' ∈ pair.toList
  · obtain ⟨cs, hcs⟩ : ∃ cs, pair.toList = '=' :: cs := by
      rcases h with h | h
      · exact absurd hmem h
      · exact List.head?_eq_some_iff.1 h
    have hsplit : splitAtEquals ([] ++ '=' :: cs) = ([], some cs) := splitAtEquals_append List.not_mem_nil cs
    rw [hcs]
    rw [List.nil_append] at hsplit
    rw [hsplit]
    rfl
  · rw [splitAtEquals_of_not_mem hmem]
    cases pair.toList with
    | nil => rfl
    | cons c cs => rfl

theorem readPair_good {pair : String} (h : ¬ IsBadPair pair) :
    ∃ kv, readPair pair = .ok kv ∧ pair = kv.1 ++ "=" ++ kv.2 ∧ IsGood kv := by
  have hmem : '=' ∈ pair.toList := Decidable.not_not.1 fun hn => h (.inl hn)
  obtain ⟨key, value, hpair, hkey⟩ := List.eq_append_cons_of_mem hmem
  have hne : key ≠ [] := by
    rintro rfl
    exact h (.inr (by rw [hpair]; rfl))
  refine ⟨(String.ofList key, String.ofList value), ?_, ?_, ?_, ?_⟩
  · unfold readPair
    rw [hpair, splitAtEquals_append hkey]
    cases key with
    | nil => contradiction
    | cons c cs => rfl
  · have hchars : (String.ofList key ++ "=" ++ String.ofList value).toList = pair.toList := by
      simp [String.toList_append, hpair]
    exact (String.toList_inj.1 hchars).symm
  · simpa using hne
  · rwa [String.toList_ofList]

theorem mapM_readPair_good {pairs : List String} (h : ∀ p ∈ pairs, ¬ IsBadPair p) :
    ∃ kvs, pairs.mapM readPair = .ok kvs ∧ pairs = kvs.map (fun kv => kv.1 ++ "=" ++ kv.2) ∧
      ∀ kv ∈ kvs, IsGood kv := by
  induction pairs with
  | nil => exact ⟨[], rfl, rfl, nofun⟩
  | cons p pairs ih =>
    obtain ⟨hp, hpairs⟩ := List.forall_mem_cons.1 h
    obtain ⟨kv, hread, hpair, hgood⟩ := readPair_good hp
    obtain ⟨kvs, hreads, hall, hgoods⟩ := ih hpairs
    refine ⟨kv :: kvs, ?_, ?_, List.forall_mem_cons.2 ⟨hgood, hgoods⟩⟩
    · rw [List.mapM_cons, hread, hreads]
      rfl
    · rw [List.map_cons, ← hpair, ← hall]

/-- Where there is a pair that is none, there is a first one. -/
theorem exists_first_bad {pairs : List String} (h : ∃ p ∈ pairs, IsBadPair p) :
    ∃ before pair later, pairs = before ++ pair :: later ∧ (∀ p ∈ before, ¬ IsBadPair p) ∧ IsBadPair pair := by
  induction pairs with
  | nil =>
    obtain ⟨p, hp, -⟩ := h
    cases hp
  | cons p pairs ih =>
    by_cases hp : IsBadPair p
    · exact ⟨[], p, pairs, rfl, nofun, hp⟩
    · obtain ⟨q, hq, hbad⟩ := h
      have hmem : q ∈ pairs := (List.mem_cons.1 hq).resolve_left fun he => hp (he ▸ hbad)
      obtain ⟨before, pair, later, rfl, hbefore, hpair⟩ := ih ⟨q, hmem, hbad⟩
      exact ⟨p :: before, pair, later, rfl, List.forall_mem_cons.2 ⟨hp, hbefore⟩, hpair⟩

/-- The first pair that is none is the one that is refused. -/
theorem readPairs_bad {before : List String} (hbefore : ∀ p ∈ before, ¬ IsBadPair p) {pair : String}
    (h : IsBadPair pair) (later : List String) :
    readPairs (before ++ pair :: later) = .error (notAPair pair) := by
  obtain ⟨kvs, hread, -, -⟩ := mapM_readPair_good hbefore
  rw [readPairs, List.mapM_append, hread, List.mapM_cons, readPair_bad h]
  rfl

theorem findEntry_pairs (kvs : List (String × String)) (key : String) :
    findEntry (.str key) (kvs.map fun kv => (.str kv.1, .str kv.2)) =
      ((kvs.filter (·.1 = key)).head?).map fun kv => .str kv.2 := by
  induction kvs with
  | nil => rfl
  | cons kv kvs ih =>
    have hsame : (Value.str kv.1).SameKey (.str key) ↔ kv.1 = key := by
      simp [Value.SameKey, Value.str, Value.keyForm]
    rw [List.map_cons, findEntry, ih]
    by_cases h : kv.1 = key
    · rw [if_pos (hsame.2 h)]
      simp [h]
    · rw [if_neg (mt hsame.1 h)]
      simp [h]

/-- Pairs that are pairs are read as fields of texts. -/
theorem readPairs_good {pairs : List String} (h : ∀ p ∈ pairs, ¬ IsBadPair p) :
    ∃ f, readPairs pairs = .ok f ∧ AreFields pairs f ∧ ∀ e ∈ f.entries, IsTextEntry e := by
  obtain ⟨kvs, hread, hpairs, hgood⟩ := mapM_readPair_good h
  refine ⟨_, by rw [readPairs, hread]; rfl, ⟨kvs, hpairs, hgood, rfl, fun key => ?_⟩, ?_⟩
  · have hempty : Fields.empty.get? (.str key) = none := rfl
    rw [Fields.ofList, Fields.get?_setAll, hempty, Option.or_none, ← List.map_reverse, findEntry_pairs,
      List.filter_reverse, List.head?_reverse]
  · refine Fields.ofList_texts fun e he => ?_
    obtain ⟨kv, -, rfl⟩ := List.mem_map.1 he
    exact ⟨kv.1, kv.2, rfl⟩

/-! ## The command line -/

/-- The options of a command line that sends an entry at a level through a threshold, one for each pair. -/
def emitOptions (level threshold : String) (pairs : List String) (println : Bool) : List Written :=
  { option := "--level", value := some level } :: { option := "--threshold", value := some threshold } ::
    (pairs.map (fun p => { option := "--field", value := some p }) ++
      if println then [{ option := "--println" }] else [])

/-- A command line that sends an entry at a level through a threshold, with an option for each pair. -/
def emitLine (level threshold : String) (pairs : List String) (println : Bool) (message : String)
    (args : List String) : List String :=
  ["emit", "--level", level, "--threshold", threshold] ++ pairs.flatMap (fun p => ["--field", p]) ++
    (if println then ["--println"] else []) ++ "--" :: message :: args

section reading

variable (level threshold : String) (pairs : List String) (println : Bool) (message : String)
  (args : List String)

theorem emitLine_eq : emitLine level threshold pairs println message args =
    "emit" :: (wordsOf (emitOptions level threshold pairs println) ++ "--" :: message :: args) := by
  have hpairs : (pairs.map fun p => ({ option := "--field", value := some p } : Written)).flatMap
      (fun w => w.option :: w.value.toList) = pairs.flatMap fun p => ["--field", p] := by
    rw [List.flatMap_map]
    rfl
  unfold emitLine emitOptions wordsOf
  rw [List.flatMap_cons, List.flatMap_cons, List.flatMap_append, hpairs]
  cases println <;> simp

/-- A choice of options that leaves out the pairs. -/
theorem filter_emitOptions {chosen : Written → Bool}
    (h : ∀ p, chosen { option := "--field", value := some p } = false) :
    (emitOptions level threshold pairs println).filter chosen =
      ({ option := "--level", value := some level } :: { option := "--threshold", value := some threshold } ::
        if println then [{ option := "--println" }] else []).filter chosen := by
  have hpairs : (pairs.map fun p => ({ option := "--field", value := some p } : Written)).filter chosen = [] := by
    simp [h]
  unfold emitOptions
  simp only [List.filter_cons, List.filter_append, hpairs, List.nil_append]

theorem filter_field : ((emitOptions level threshold pairs println).filter (·.option = "--field")).filterMap (·.value) =
    pairs := by
  have hpairs : (pairs.map fun p => ({ option := "--field", value := some p } : Written)).filter
      (·.option = "--field") = pairs.map fun p => { option := "--field", value := some p } := by
    simp
  unfold emitOptions
  rw [List.filter_cons_of_neg (by simp), List.filter_cons_of_neg (by simp), List.filter_append, hpairs]
  cases println <;> simp [List.filterMap_map]

end reading

/-- What the values of a command line that sends an entry ask for. -/
theorem emitRequest_of_areGiven {v : Values} {level threshold : String} {pairs : List String} {println : Bool}
    {message : String} {args : List String}
    (h : v.AreGiven emitDeclaration (emitOptions level threshold pairs println) (message :: args)) :
    v.emitRequest = { level := level.toLower, threshold := threshold.toLower, pairs, println, message, args } := by
  have hlevel : v.text "level" = level.toLower := by
    rw [h.chosen "level" "--level" levelChoices "info" (by simp [emitDeclaration]),
      filter_emitOptions _ _ _ _ fun p => rfl]
    cases println <;> rfl
  have hthreshold : v.text "threshold" = threshold.toLower := by
    rw [h.chosen "threshold" "--threshold" levelChoices "debug" (by simp [emitDeclaration]),
      filter_emitOptions _ _ _ _ fun p => rfl]
    cases println <;> rfl
  have hpairs : v.texts "field_pairs" = pairs :=
    (h.repeated "field_pairs" "--field" (by simp [emitDeclaration])).trans (filter_field _ _ _ _)
  have hprintln : v.flag "println" = println := by
    have hswitched := h.switched "println" "--println" "--printf" (by simp [emitDeclaration])
    rw [filter_emitOptions _ _ _ _ fun p => rfl] at hswitched
    cases println with
    | false => exact Bool.eq_false_iff.2 (mt hswitched.1 (by simp))
    | true => exact hswitched.2 rfl
  have hmessage : v.text "message" = message := (List.cons.inj h.required).1
  have hargs : v.texts "args" = args := h.rest "args" rfl
  rw [Values.emitRequest, hlevel, hthreshold, hpairs, hprintln, hmessage, hargs]

/-- The word of a level in small letters is one that the options for levels take, and it is parsed as the level. -/
theorem parse_of_named {word : String} {l : Level} (h : Level.named? word = some l) :
    word.toLower ∈ levelChoices ∧ Level.parse (.str word.toLower) = .ok l := by
  have hmem := Level.mem_words_of_named? h
  have hwords : ∀ e ∈ Level.words, Level.ofWord? e.1 = some e.2 := by decide
  refine ⟨List.mem_map_of_mem hmem, ?_⟩
  have hshown : (Value.str word.toLower).shown = .ok word.toLower := rfl
  unfold Level.parse
  rw [hshown]
  dsimp only [bind, Except.bind]
  rw [hwords _ hmem]
  rfl

theorem emitOptions_taken {level threshold : String} {l t : Level} (hl : Level.named? level = some l)
    (ht : Level.named? threshold = some t) (pairs : List String) (println : Bool) :
    ∀ w ∈ emitOptions level threshold pairs println, ∃ p ∈ emitDeclaration.parameters, p.Takes w := by
  intro w hw
  simp only [emitOptions, List.mem_cons, List.mem_append, List.mem_map] at hw
  rcases hw with rfl | rfl | ⟨p, -, rfl⟩ | hw
  · exact ⟨.choice "level" "--level" levelChoices "info", by simp [emitDeclaration], rfl, level, rfl,
      (parse_of_named hl).1⟩
  · exact ⟨.choice "threshold" "--threshold" levelChoices "debug", by simp [emitDeclaration], rfl, threshold, rfl,
      (parse_of_named ht).1⟩
  · exact ⟨.repeated "field_pairs" "--field", by simp [emitDeclaration], rfl, p, rfl⟩
  · cases println with
    | false => cases hw
    | true =>
      rw [if_pos rfl, List.mem_singleton] at hw
      exact ⟨.switch "println" "--println" "--printf", by simp [emitDeclaration], hw ▸ ⟨.inl rfl, rfl⟩⟩

end CommandLine

/-! ## Entries on the standard output -/

namespace Dispatch

variable {nested : Call → Session Unit} {s : Store} {c : ContextRef} {l : Level} {a : AppenderRef} {call : Call}
  {f : Fields} {channel : Channel} {msg : Text} {line : String}

theorem receive_console (hconsole : s.appender a = .console) (hout : s.stdout = some channel) {h : Handle}
    (hf : s.supplied h = .fields f) (hline : formatLine (.level l) (.fields f) (.text msg) = .ok line)
    (ctx : Option ContextRef) :
    receive a ctx (.level l) h (.text msg) s =
      .ok () { s with stdout := some { channel with text := channel.text ++ line } } := by
  unfold receive
  rw [Session.run_bind_ok Session.run_get, hconsole]
  dsimp only
  rw [hout]
  dsimp only
  rw [hf, hline]
  rfl

/-- An entry without a field source that goes to the standard output is there as one line. -/
theorem deliver_console (hsource : s.sourceOf c = .value .none) (hconsole : s.appender a = .console)
    (hout : s.stdout = some channel) (hmain : s.onWorker = false) (hf : s.supplied call.fields = .fields f)
    (hm : (formatMessage call.args call.templated).2 = .ok msg)
    (hline : formatLine (.level l) (.fields f) (.text msg) = .ok line) :
    ∃ s', s'.stdout = some { channel with text := channel.text ++ line } ∧
      deliver nested c l a call s = match l.ending msg with
        | .ok () => .ok () s'
        | .error failure => .error failure s' := by
  have hregular : (s.supplied call.fields).IsRegular := by
    rw [hf]
    trivial
  have hplain : s.plainFields c call.fields = f := by
    unfold Store.plainFields Store.ownFields
    rw [hsource, hf]
  obtain ⟨h, s₁, hx, ⟨ms, rfl⟩, hh⟩ : ∃ h s₁, entryFields nested c l call s = .ok h s₁ ∧ s.Allots s₁ ∧ _ :=
    entryFields_plain (.inl hsource) hregular
  rw [hplain] at hh
  obtain ⟨s₂, ⟨rs, hs₂⟩, hdeliver⟩ : ∃ s₂, Store.Notes _ _ s₂ ∧ deliver nested c l a call s = _ :=
    deliver_of_message hx (entryFields_isMapping hregular hx) hm
  -- The report and the note on the way to the appender do not matter to it.
  have hconsole₂ : s₂.appender a = .console := by rw [hs₂]; exact hconsole
  have hout₂ : s₂.stdout = some channel := by rw [hs₂]; exact hout
  have hmain₂ : s₂.onWorker = false := by rw [hs₂]; exact hmain
  have hh₂ : s₂.supplied h = .fields f := by
    rw [hs₂]
    exact (Store.supplied_noted _ rs _ h).trans hh
  have hreceive := receive_console hconsole₂ hout₂ hh₂ hline (some c)
  refine ⟨{ s₂ with stdout := some { channel with text := channel.text ++ line } }, rfl, ?_⟩
  rw [hdeliver, Session.run_seq_ok hreceive]
  exact followUp_main hmain₂

end Dispatch

namespace CommandLine

/-! ## Running the command -/

section running

variable {α β : Type} {x : Run α} {g : α → Run β} {t t' : Terminal}

theorem onStore_ok {x : Session α} {a : α} {s : Store} (h : x t.store = .ok a s) :
    onStore x t = .ok a { t with store := s } := by
  unfold onStore
  rw [h]

theorem onStore_error {x : Session α} {failure : Failure} {s : Store} (h : x t.store = .error failure s) :
    onStore x t = .error (.failed failure) { t with store := s } := by
  unfold onStore
  rw [h]

end running

/-- The store with an appender for the standard output, a context with a threshold for it, and a mapping. -/
def opened (s : Store) (threshold : Level) (f : Fields) : Store := { s with
  appenders := s.appenders ++ [.console]
  contexts := s.contexts ++ [{ level := .level threshold, appender := some ⟨s.appenders.length⟩ }]
  mappings := s.mappings ++ [f] }

/-- The entry of a request at a level. -/
def entryOf (s : Store) (r : EmitRequest) (l : Level) : Call where
  context := some ⟨s.contexts.length⟩
  level := .level l
  fields := .live ⟨s.mappings.length⟩
  args := (r.message :: r.args).map .str
  templated := !r.println

section requests

variable (r : EmitRequest) {l threshold : Level}

/-- Pairs that cannot be read end the command before an entry is sent. -/
theorem sendRequest_bad (hl : Level.parse (.str r.level) = .ok l) (ht : Level.parse (.str r.threshold) = .ok threshold)
    {fault : UsageFault} (h : readPairs r.pairs = .error fault) (t : Terminal) :
    ∃ s, s.stdout = t.store.stdout ∧ sendRequest r t = .error (.usage fault) { t with store := s } := by
  unfold sendRequest
  rw [hl, ht, h]
  refine ⟨_, ?_, rfl⟩
  rfl

theorem sendRequest_run (hl : Level.parse (.str r.level) = .ok l) (ht : Level.parse (.str r.threshold) = .ok threshold)
    {f : Fields} (h : readPairs r.pairs = .ok f) (t : Terminal) :
    sendRequest r t = onStore (send (entryOf t.store r l)) { t with store := opened t.store threshold f } := by
  unfold sendRequest
  rw [hl, ht, h]
  rfl

end requests

theorem setTraces_run (traceback : Bool) (t : Terminal) :
    setTraces traceback t = .ok () { t with settings := ⟨traceback, traceback⟩ } := rfl

section calling

variable {parser : Parser} {level threshold : String} {l t : Level} {terminal : Terminal}

/-- The request of the command line that sends an entry. -/
def emitRequest (level threshold : String) (pairs : List String) (println : Bool) (message : String)
    (args : List String) : EmitRequest :=
  { level := level.toLower, threshold := threshold.toLower, pairs, println, message, args }

/-- The command line that sends an entry is found and read. -/
theorem emit_run (hfinds : parser.Finds (rootDeclaration terminal.startVersion) (commands.map (·.name)))
    (hreads : parser.Reads emitDeclaration) (hl : Level.named? level = some l) (ht : Level.named? threshold = some t)
    (pairs : List String) (println : Bool) (message : String) (args : List String) :
    root parser (emitLine level threshold pairs println message args) terminal =
      sendRequest (emitRequest level threshold pairs println message args) { terminal with settings := {} } := by
  obtain ⟨v, hfind, hv⟩ := hfinds [] ⟨3, by decide⟩
    (wordsOf (emitOptions level threshold pairs println) ++ "--" :: message :: args) nofun
  obtain ⟨w, hread, hw⟩ := hreads _ (message :: args) (emitOptions_taken hl ht pairs println)
    (Nat.le_add_left 1 args.length) nofun
  have hswitched := hv.switched "traceback" "--traceback" "--no-traceback" (by simp [rootDeclaration])
  have htraceback : v.flag "traceback" = false := Bool.eq_false_iff.2 (mt hswitched.1 (by simp))
  have hline : wordsOf [] ++ (commands.map (·.name)).get ⟨3, by decide⟩ ::
      (wordsOf (emitOptions level threshold pairs println) ++ "--" :: message :: args) =
        emitLine level threshold pairs println message args := (emitLine_eq _ _ _ _ _ _).symm
  have hcalled : resolve parser (emitLine level threshold pairs println message args) terminal =
      .ok { traceback := v.flag "traceback"
            command := (commands.get ⟨3, by decide⟩).call parser
              (wordsOf (emitOptions level threshold pairs println) ++ "--" :: message :: args) } terminal := by
    have hget : (get : Run Terminal) terminal = .ok terminal terminal := rfl
    unfold resolve
    rw [← hline, run_bind_ok hget, hfind]
    rfl
  have hcall : ∀ t', (commands.get ⟨3, by decide⟩).call parser
      (wordsOf (emitOptions level threshold pairs println) ++ "--" :: message :: args) t' =
        sendRequest w.emitRequest t' := by
    intro t'
    show (parsed (parser.read emitDeclaration _) >>= fun v => sendRequest v.emitRequest) t' = _
    rw [hread]
    rfl
  rw [root, run_bind_ok hcalled, htraceback, run_bind_ok (setTraces_run false terminal)]
  exact (hcall _).trans (by rw [emitRequest_of_areGiven hw]; rfl)

end calling

section sending

variable {s : Store} {r : EmitRequest} {l t : Level} {f : Fields}

theorem context_opened : (opened s t f).context ⟨s.contexts.length⟩ =
    { level := .level t, appender := some ⟨s.appenders.length⟩ } := by
  simp [opened, Store.context]

theorem sourceOf_opened : (opened s t f).sourceOf ⟨s.contexts.length⟩ = .value .none := by
  unfold Store.sourceOf
  rw [context_opened]

theorem appender_opened : (opened s t f).appender ⟨s.appenders.length⟩ = .console := by
  simp [opened, Store.appender]

theorem supplied_opened : (opened s t f).supplied (entryOf s r l).fields = .fields f := by
  simp [opened, entryOf, Store.supplied, Store.mapping]

/-- The context of a request is not the empty one, so that its own appender counts. -/
theorem appenderOf_opened (hs : s.contexts ≠ []) (d : Defaults) :
    (opened s t f).appenderOf d ⟨s.contexts.length⟩ = some ⟨s.appenders.length⟩ := by
  have hne : (⟨s.contexts.length⟩ : ContextRef) ≠ .background := by
    intro h
    exact hs (List.length_eq_zero_iff.1 (congrArg ContextRef.index h))
  unfold Store.appenderOf
  rw [if_neg hne, context_opened]
  rfl

theorem admission_opened (hs : s.contexts ≠ []) :
    (opened s t f).admission (entryOf s r l).context (entryOf s r l).level =
      if t < l then .filtered else .admitted ⟨s.contexts.length⟩ l ⟨s.appenders.length⟩ := by
  have hregular : ((opened s t f).context ⟨s.contexts.length⟩).IsRegular := .inr ⟨t, by rw [context_opened]⟩
  have hthreshold : (opened s t f).threshold ⟨s.contexts.length⟩ = t := by
    unfold Store.threshold
    rw [context_opened]
  have hcontext : (entryOf s r l).context.or (opened s t f).defaults.context = some ⟨s.contexts.length⟩ := rfl
  have hlevel : (entryOf s r l).level.SameKey (.level l) := rfl
  rw [Store.admission_of_level hcontext hregular hlevel, hthreshold, appenderOf_opened hs]

theorem send_opened (hs : s.contexts ≠ []) : send (entryOf s r l) (opened s t f) =
    if t < l then .ok () (opened s t f)
    else Dispatch.deliver (dispatch (nestingLimit - 1)) ⟨s.contexts.length⟩ l ⟨s.appenders.length⟩ (entryOf s r l)
      (opened s t f) := by
  show dispatchWith (dispatch (nestingLimit - 1)) (entryOf s r l) (opened s t f) = _
  rw [dispatchWith_run, admission_opened hs]
  by_cases h : t < l
  · rw [if_pos h, if_pos h]
  · rw [if_neg h, if_neg h]

end sending

/-! ## The law -/

/-- A terminal on which a program can be started: its standard output is there, the program runs on the main
thread, and its store has the empty context. -/
structure Terminal.IsReady (terminal : Terminal) (channel : Channel) : Prop where
  stdout : terminal.store.stdout = some channel
  main : terminal.store.onWorker = false
  background : terminal.store.contexts ≠ []

/-- The exit code of a run of the program, and what the run has printed. -/
def Prints (run : EStateM.Result Failure Terminal Int) (channel : Channel) (code : Int) (printed : String) : Prop :=
  ∃ t, run = .ok code t ∧ t.store.stdout = some { channel with text := channel.text ++ printed }

/-- What becomes of a command line that sends an entry at the level `l` through the threshold `t`. -/
structure EmitLaw (l t : Level) (pairs : List String) (println : Bool) (message : String) (args : List String)
    (channel : Channel) (run : EStateM.Result Failure Terminal Int) : Prop where
  /-- Pairs that are none are refused. -/
  badPair : (∃ p ∈ pairs, IsBadPair p) → Prints run channel 2 ""
  /-- An entry below the threshold is dropped. -/
  filtered : (∀ p ∈ pairs, ¬ IsBadPair p) → t < l → Prints run channel 0 ""
  /-- Any other entry has a message and is written as one line, and its level decides the exit code. -/
  written : (∀ p ∈ pairs, ¬ IsBadPair p) → l ≤ t →
    ∃ msg fields line, (formatMessage ((message :: args).map .str) (!println)).2 = .ok msg ∧ AreFields pairs fields ∧
      formatLine (.level l) (.fields fields) (.text msg) = .ok line ∧
      Prints run channel (if l = .panic ∨ l = .fatal then 1 else 0) line

section exits

variable {parser : Parser} {tools : ExitTools} {argv : List String} {terminal ended : Terminal} {channel : Channel}
  {printed : String}

theorem prints_of_exits {code : Int} (h : tools.Exits (root parser argv) terminal code ended)
    (hout : ended.store.stdout = some { channel with text := channel.text ++ printed }) (restore : Bool) :
    Prints (mainWith parser tools argv restore terminal) channel code printed := by
  obtain ⟨t', hrun, ht'⟩ := h
  refine ⟨_, mainWith_of_ok (exitOf_of_ok hrun) restore, ?_⟩
  cases restore <;> exact ht'.trans hout

/-- The level of an entry that is written decides the exit code. -/
theorem prints_of_ending (htools : tools.MapsOutcomes) {x : Session Unit} {t : Terminal} {s : Store} {l : Level}
    {msg : Text} (hroot : root parser argv terminal = onStore x t)
    (hx : x t.store = match l.ending msg with
      | .ok () => .ok () s
      | .error failure => .error failure s)
    (hout : s.stdout = some { channel with text := channel.text ++ printed }) (restore : Bool) :
    Prints (mainWith parser tools argv restore terminal) channel (if l = .panic ∨ l = .fatal then 1 else 0)
      printed := by
  cases l with
  | panic => exact prints_of_exits (htools.panicked (hroot.trans (onStore_error hx))) hout restore
  | fatal => exact prints_of_exits (htools.exited (hroot.trans (onStore_error hx))) hout restore
  | _ => exact prints_of_exits (htools.returned (hroot.trans (onStore_ok hx))) hout restore

end exits

section emitting

variable {parser : Parser} {tools : ExitTools} {terminal : Terminal} {level threshold : String} {l t : Level}
  {pairs : List String}

/-- Pairs that are none end the command before an entry is sent. -/
theorem emit_bad (hfinds : parser.Finds (rootDeclaration terminal.startVersion) (commands.map (·.name)))
    (hreads : parser.Reads emitDeclaration) (hl : Level.named? level = some l) (ht : Level.named? threshold = some t)
    (hbad : ∃ p ∈ pairs, IsBadPair p) (println : Bool) (message : String) (args : List String) :
    ∃ fault t', t'.store.stdout = terminal.store.stdout ∧
      root parser (emitLine level threshold pairs println message args) terminal = .error (.usage fault) t' := by
  obtain ⟨before, pair, later, hpairs, hbefore, hpair⟩ := exists_first_bad hbad
  have hread : readPairs pairs = .error (notAPair pair) := hpairs ▸ readPairs_bad hbefore hpair later
  have hrequest : readPairs (emitRequest level threshold pairs println message args).pairs =
      .error (notAPair pair) := hread
  obtain ⟨s, hout, hsend⟩ := sendRequest_bad (emitRequest level threshold pairs println message args)
    (parse_of_named hl).2 (parse_of_named ht).2 hrequest { terminal with settings := {} }
  exact ⟨notAPair pair, _, hout, (emit_run hfinds hreads hl ht pairs println message args).trans hsend⟩

/-- If all pairs can be read, what is left is to send the entry through a context with the threshold. -/
theorem emit_good (hfinds : parser.Finds (rootDeclaration terminal.startVersion) (commands.map (·.name)))
    (hreads : parser.Reads emitDeclaration) (hl : Level.named? level = some l) (ht : Level.named? threshold = some t)
    (hs : terminal.store.contexts ≠ []) (hgood : ∀ p ∈ pairs, ¬ IsBadPair p) (println : Bool)
    (message : String) (args : List String) :
    ∃ f call, AreFields pairs f ∧ (∀ e ∈ f.entries, IsTextEntry e) ∧
      (opened terminal.store t f).supplied call.fields = .fields f ∧
      formatMessage call.args call.templated = formatMessage ((message :: args).map .str) (!println) ∧
      root parser (emitLine level threshold pairs println message args) terminal =
        onStore (send call) { terminal with store := opened terminal.store t f, settings := {} } ∧
      send call (opened terminal.store t f) =
        if t < l then .ok () (opened terminal.store t f)
        else Dispatch.deliver (dispatch (nestingLimit - 1)) ⟨terminal.store.contexts.length⟩ l
          ⟨terminal.store.appenders.length⟩ call (opened terminal.store t f) := by
  obtain ⟨f, hread, hf, htexts⟩ := readPairs_good hgood
  have hrun := emit_run hfinds hreads hl ht pairs println message args
  have hsend := sendRequest_run (emitRequest level threshold pairs println message args) (parse_of_named hl).2
    (parse_of_named ht).2 hread { terminal with settings := {} }
  exact ⟨f, entryOf terminal.store (emitRequest level threshold pairs println message args) l, hf, htexts,
    supplied_opened, rfl, hrun.trans hsend, send_opened hs⟩

/-- Sending an entry from the command line does what the library does: pairs that are none are refused, an
entry below the threshold is dropped, and any other one is the line that is made of its level, its fields and
its message. -/
theorem emit_prints (hfinds : parser.Finds (rootDeclaration terminal.startVersion) (commands.map (·.name)))
    (hreads : parser.Reads emitDeclaration) (htools : tools.MapsOutcomes) {channel : Channel}
    (hready : terminal.IsReady channel) (hl : Level.named? level = some l) (ht : Level.named? threshold = some t)
    (pairs : List String) (println : Bool) (message : String) (args : List String) (restore : Bool) :
    EmitLaw l t pairs println message args channel
      (mainWith parser tools (emitLine level threshold pairs println message args) restore terminal) := by
  have hnothing : terminal.store.stdout = some { channel with text := channel.text ++ "" } := by
    rw [String.append_empty]
    exact hready.stdout
  have hgiven := fun hgood : ∀ p ∈ pairs, ¬ IsBadPair p =>
    emit_good hfinds hreads hl ht hready.background hgood println message args
  constructor
  case badPair =>
    intro hbad
    obtain ⟨fault, t', hout, hroot⟩ := emit_bad hfinds hreads hl ht hbad println message args
    exact prints_of_exits (htools.usage hroot) (hout.trans hnothing) restore
  case filtered =>
    intro hgood hlt
    obtain ⟨f, call, -, -, -, -, hroot, hsend⟩ := hgiven hgood
    exact prints_of_exits (htools.returned (hroot.trans (onStore_ok (hsend.trans (if_pos hlt))))) hnothing restore
  case written =>
    intro hgood hle
    obtain ⟨f, call, hf, htexts, hfields, hmessage, hroot, hsend⟩ := hgiven hgood
    obtain ⟨msg, hm⟩ := formatMessage_texts message args (!println)
    obtain ⟨line, hline⟩ := formatLine_texts l htexts msg
    refine ⟨msg, f, line, hm, hf, hline, ?_⟩
    rw [if_neg (Level.not_lt.2 hle)] at hsend
    obtain ⟨s', hs', hend⟩ := Dispatch.deliver_console sourceOf_opened appender_opened hready.stdout
      hready.main hfields (hmessage ▸ hm) hline
    exact prints_of_ending htools hroot (hsend.trans hend) hs' restore

end emitting

/-- A warning with two fields, one of them given twice, on a terminal with nothing on it. -/
theorem emit_prints_warning :
    EmitLaw .warn .debug ["size=2", "city=Austin", "size=3"] false "Hello %s" ["Alice"] {}
      (mainWith reader (exitTools none) ["emit", "--level", "Warn", "--threshold", "debug", "--field", "size=2",
        "--field", "city=Austin", "--field", "size=3", "--", "Hello %s", "Alice"] true {}) := by
  have hl : Level.named? "Warn" = some .warn := (Level.ofWord?_eq_named? "Warn").symm.trans (by decide)
  have ht : Level.named? "debug" = some .debug := (Level.ofWord?_eq_named? "debug").symm.trans (by decide)
  exact emit_prints (reader_finds _) reader_reads exitTools_mapsOutcomes ⟨rfl, rfl, by decide⟩ hl ht _ false "Hello %s"
    ["Alice"] true

example : (runMain ["emit", "--level", "warn", "--field", "size=2", "--field", "city=Austin", "--field",
    "size=3", "--", "Hello %s", "Alice"] true none {}).2.store.stdout.map (·.text) =
      some "[WARN] Hello Alice \x7b'city': 'Austin', 'size': '3'\x7d\n" := by decide +kernel

end CommandLine

end ContextLog
