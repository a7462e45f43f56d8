import RobotScript.Proofs.Encoding
import RobotScript.Proofs.LoadingEvents
import RobotScript.Proofs.LogLevels

/-!
# What a lexer reports about a source

The events about a source are those of filling the keyword table, if it has to be filled, the
details about the tokens, if they are asked for, the warnings about problems, and one event at the
end. They say what the stream, the problems and the counts say. For an empty source there is one
detail, and the keyword table is left as it is.

Results:

* `Lexer.tokenize_of_ne_empty`: all that a lexer does with a source that is not empty.
* `Lexer.transcript_tokenize`: the events that a service is handed.
-/

namespace RobotScript

open Log (Ambient Event Level Code Output)

/-! ## The parts of a transcript -/

namespace Keyword

/-- The events, as they are handed on, when the keywords of a table are needed: those of filling
it, of which the last says that it is filled, or none if it is filled already. -/
structure Loads (prepare : Event → Event) (t : Table) (es : List Event) : Prop where
  eq_map : es = if t.isPopulated then [] else (populate t.spellings).events.map prepare
  eq_nil_iff : es = [] ↔ t.isPopulated = true
  last : t.isPopulated = false → ∃ before last, es = before ++ [last] ∧ last.code = .keywordsLoaded

theorem events_force (t : Table) :
    t.force.2.2.events = if t.isPopulated then [] else (populate t.spellings).events := by
  unfold Table.force Table.isPopulated
  cases t.loaded <;> rfl

theorem isPopulated_force (t : Table) : t.force.2.1.isPopulated = true := by
  unfold Table.force Table.isPopulated
  cases hl : t.loaded <;> simp [hl]

theorem loads_force {prepare : Event → Event} (hcode : ∀ e, (prepare e).code = e.code)
    (t : Table) : Loads prepare t (t.force.2.2.events.map prepare) := by
  obtain ⟨before, hbefore⟩ : ∃ before, (populate t.spellings).events =
      before ++ [Loading.completed (populate t.spellings).entries] := ⟨_, rfl⟩
  rw [events_force]
  cases hpopulated : t.isPopulated with
  | true =>
    refine ⟨?_, ?_, ?_⟩
    · rw [hpopulated]
      rfl
    · simp [hpopulated]
    · rw [hpopulated]
      exact nofun
  | false =>
    let last := Loading.completed (populate t.spellings).entries
    refine ⟨?_, ?_, fun _ => ⟨before.map prepare, prepare last, ?_, ?_⟩⟩
    · rw [hpopulated]
      rfl
    · simp [hpopulated, hbefore]
    · show (populate t.spellings).events.map prepare = _
      rw [hbefore, List.map_append, List.map_singleton]
    · rw [hcode, Loading.code_completed]

/-- Filling a table does not report the end of a source. -/
theorem code_ne_tokenized_of_mem_events (spellings : Spellings) :
    ∀ e ∈ (populate spellings).events, e.code ≠ .tokenized := by
  have hnone : (populate spellings).events.filter (fun e => e.code = .tokenized) = [] := by
    rw [filter_events_populate (by decide), List.filter_eq_nil_iff]
    intro e he
    rw [List.mem_append, List.mem_append] at he
    rcases he with (he | he) | he
    · obtain ⟨c, -, rfl⟩ := List.mem_map.1 he
      simp [Code.keywordRangeExceeded, Code.tokenized]
    · split at he
      · obtain rfl := List.mem_singleton.1 he
        simp [Code.keywordTableFull, Code.tokenized]
      · exact absurd he List.not_mem_nil
    · obtain rfl := List.mem_singleton.1 he
      simp [Code.keywordsLoaded, Code.tokenized]
  intro e he
  simpa using List.filter_eq_nil_iff.1 hnone e he

theorem code_ne_tokenized_of_mem_force (t : Table) :
    ∀ e ∈ t.force.2.2.events, e.code ≠ .tokenized := by
  rw [events_force]
  split
  · exact nofun
  · exact code_ne_tokenized_of_mem_events _

end Keyword

namespace Diagnostic

/-- An event is the warning about a problem. -/
structure Warns (d : Diagnostic) (e : Event) : Prop where
  level : e.level = .warning
  code : e.code = d.code
  message : e.message = d.message
  span : e.span = some d.span

theorem mem_ofStream {stream : Stream} {scanner : Scanner} {d : Diagnostic}
    (h : d ∈ ofStream stream scanner) : ∃ span, d = openString span ∨ d = openComment span := by
  rw [ofStream, List.mem_mergeSort, List.mem_append] at h
  rcases h with h | h
  · obtain ⟨t, -, rfl⟩ := List.mem_map.1 h
    exact ⟨t.span, .inl rfl⟩
  · obtain ⟨start, -, rfl⟩ := List.mem_map.1 h
    exact ⟨_, .inr rfl⟩

theorem code_ne_tokenized_of_mem_map_event {stream : Stream} {scanner : Scanner} :
    ∀ e ∈ (ofStream stream scanner).map event, e.code ≠ .tokenized := by
  intro e he
  obtain ⟨d, hd, rfl⟩ := List.mem_map.1 he
  obtain ⟨span, rfl | rfl⟩ := mem_ofStream hd
  · show Code.unterminatedString ≠ .tokenized
    decide
  · show Code.unterminatedComment ≠ .tokenized
    decide

end Diagnostic

namespace Lexer

/-- An event is the detail about a token. -/
structure Details (t : Token) (e : Event) : Prop where
  level : e.level = .debug
  kind : e.context.get? "kind" = some t.kind.name
  id : e.context.get? "id" = some (toString t.id)
  span : e.context.get? "span" = some t.span.render
  text : e.context.get? "text" = some t.text

/-- An event is the one at the end of a source with these counts. -/
structure Completes (m : Metrics) (e : Event) : Prop where
  level : e.level = .info
  code : e.code = .tokenized
  tokens : e.context.get? "tokens" = some (toString m.total)
  keywords : e.context.get? "keywords" = some (toString m.keywords)
  constants : e.context.get? "constants" = some (toString m.constants)
  bytes : e.context.get? "bytes" = some (toString m.bytes)

/-- The events that are handed on when a lexer `l` turns a source into a stream, or finds it empty,
and is left as `after`. -/
inductive Transcript (prepare : Event → Event) (l : Lexer) :
    String → Option Stream → Lexer → List Event → Prop
  | empty {after : Lexer} {e : Event} (level : e.level = .debug)
      (keywords : after.keywords = l.keywords) : Transcript prepare l "" none after [e]
  | stream {source : String} {stream : Stream} {after : Lexer}
      {loading trace warnings : List Event} {last : Event} (ne_empty : source ≠ "")
      (loads : Keyword.Loads prepare l.keywords loading)
      (isPopulated : after.keywords.isPopulated = true)
      (details : if l.preferences.traceTokens then List.Forall₂ Details stream.tokens.toList trace
        else trace = [])
      (warns : List.Forall₂ Diagnostic.Warns after.diagnostics warnings)
      (completes : Completes after.metrics last)
      (once : (loading ++ trace ++ warnings ++ [last]).countP (·.code = .tokenized) = 1) :
      Transcript prepare l source (some stream) after (loading ++ trace ++ warnings ++ [last])

/-- All that a lexer does with a source that is not empty. -/
theorem tokenize_of_ne_empty (l : Lexer) (elapsed : Nat) {source : String} (h : source ≠ "") :
    ∃ stream scanner,
      let metrics := measure l.preferences.detailedMetrics source.utf8ByteSize stream scanner
      let diagnostics := Diagnostic.ofStream stream scanner
      l.tokenize elapsed source =
        (some stream, { l with keywords := l.keywords.force.2.1, metrics, diagnostics },
          l.keywords.force.2.2.events ++
            (if l.preferences.traceTokens then stream.tokens.toList.map tokenEvent else []) ++
            diagnostics.map Diagnostic.event ++ [completed elapsed metrics]) := by
  have hkeywords : keywordsFor source l.keywords = l.keywords.force := if_neg h
  unfold tokenize
  rw [hkeywords]
  rcases l.keywords.force with ⟨entries, keywords, effects⟩
  cases hscan : Stream.scan? ⟨entries, l.constants⟩ source with
  | none =>
    have hnil := (Stream.scan?_eq_none_iff _ source).1 hscan
    exact absurd (Text.ofText_injective hnil) h
  | some found => exact ⟨found.1, found.2, by simp only [hscan]⟩

section

variable (a : Ambient)

theorem details_prepare (t : Token) : Details t (a.prepare (tokenEvent t)) := by
  refine ⟨Ambient.level_prepare _, ?_, ?_, ?_, ?_⟩ <;>
    simp [Ambient.get?_prepare, Event.sourceKey, tokenEvent, Event.withEntries, Event.withContext]

theorem completes_prepare (elapsed : Nat) (m : Metrics) :
    Completes m (a.prepare (completed elapsed m)) := by
  refine ⟨Ambient.level_prepare _, ?_, ?_, ?_, ?_, ?_⟩
  · rw [Ambient.code_prepare, completed, Event.code_withEntries]
    rfl
  all_goals
    simp [Ambient.get?_prepare, Event.sourceKey, completed, Event.withEntries, Event.withContext]

theorem warns_prepare {stream : Stream} {scanner : Scanner} {d : Diagnostic}
    (h : d ∈ Diagnostic.ofStream stream scanner) : d.Warns (a.prepare d.event) where
  level := Ambient.level_prepare _
  code := a.code_prepare _
  message := by
    have hshort : d.message.utf8ByteSize ≤ Limits.built.maxMessage := by
      obtain ⟨span, rfl | rfl⟩ := Diagnostic.mem_ofStream h
      · show "String literal is not closed".utf8ByteSize ≤ 4096
        decide +kernel
      · show "Block comment is not closed".utf8ByteSize ≤ 4096
        decide +kernel
    rw [Ambient.message_prepare]
    exact if_pos hshort
  span := a.span_prepare _

theorem code_ne_tokenized_of_mem_map_tokenEvent (ts : List Token) :
    ∀ e ∈ ts.map tokenEvent, e.code ≠ .tokenized := by
  intro e he
  obtain ⟨t, -, rfl⟩ := List.mem_map.1 he
  rw [tokenEvent, Event.code_withEntries]
  decide

theorem countP_tokenized_map {es : List Event} (h : ∀ e ∈ es, e.code ≠ .tokenized) :
    (es.map a.prepare).countP (·.code = .tokenized) = 0 := by
  rw [List.countP_eq_zero]
  intro e he
  obtain ⟨f, hf, rfl⟩ := List.mem_map.1 he
  rw [Ambient.code_prepare]
  simpa using h f hf

/-- The events about a source make up a transcript. -/
theorem transcript_prepare (l : Lexer) (elapsed : Nat) (source : String) :
    let result := l.tokenize elapsed source
    Transcript a.prepare l source result.1 result.2.1 (result.2.2.map a.prepare) := by
  intro result
  by_cases hne : source = ""
  · subst hne
    exact .empty (Ambient.level_prepare _) rfl
  · obtain ⟨stream, scanner, hresult⟩ := l.tokenize_of_ne_empty elapsed hne
    have hresult : result = _ := hresult
    rw [hresult]
    simp only [List.map_append, List.map_cons, List.map_nil]
    refine .stream hne (Keyword.loads_force a.code_prepare l.keywords)
      (Keyword.isPopulated_force l.keywords) ?_ ?_ (completes_prepare a elapsed _) ?_
    · split
      · rw [List.map_map, List.forall₂_map_right_iff, List.forall₂_same]
        exact fun t _ => details_prepare a t
      · rfl
    · rw [List.map_map, List.forall₂_map_right_iff, List.forall₂_same]
      exact fun d hd => warns_prepare a hd
    · have htrace : ∀ e ∈ if l.preferences.traceTokens then stream.tokens.toList.map tokenEvent
          else [], e.code ≠ .tokenized := by
        split
        · exact code_ne_tokenized_of_mem_map_tokenEvent _
        · exact nofun
      rw [List.countP_append, List.countP_append, List.countP_append,
        countP_tokenized_map a (Keyword.code_ne_tokenized_of_mem_force l.keywords),
        countP_tokenized_map a htrace,
        countP_tokenized_map a Diagnostic.code_ne_tokenized_of_mem_map_event,
        List.countP_singleton, if_pos (decide_eq_true (completes_prepare a elapsed _).code)]

end

/-- Whatever a lexer was asked before, the events about a source make up a transcript of the stream
that it answers with and of the results that it is left with. A service at level debug is handed
these events and no others, and any other service those that pass its level. -/
theorem transcript_tokenize (l : Lexer) (elapsed : Nat) (source : String)
    (context : Option String) (a : Ambient) :
    let session := Ambient.perform (Command.run elapsed) [(context, .tokenize source)] l
    ∃ stream after handed,
      (∀ b, (session b).1 = ([.stream source stream], after)) ∧
        (∀ es, a.Hands .debug session es ↔ es = handed) ∧
        (∀ services scope process, (session { a with services, scope, process }).2 =
          ({ a with services, scope, process } : Ambient).hand handed) ∧
        Transcript (a.inSource context).prepare l source stream after handed := by
  intro session
  let result := l.tokenize elapsed source
  let handed := result.2.2.map (a.inSource context).prepare
  have hreported (b : Ambient) : Ambient.reported (Command.run elapsed) b
      [(context, .tokenize source)] l = result.2.2.map (b.inSource context).prepare :=
    List.append_nil _
  refine ⟨result.1, result.2.1, handed, fun b => ?_, fun es => ?_,
    fun services scope process => ?_,
    transcript_prepare (a.inSource context) l elapsed source⟩
  · exact Ambient.fst_perform _ _ _ b
  · have hall : handed.filter (fun e => e.level ≤ Level.debug) = handed :=
      List.filter_eq_self.2 fun e _ => decide_eq_true e.level.le_debug
    rw [Ambient.hands_perform_iff, hreported, hall]
  · show (Ambient.perform _ _ _ _).2 = _
    rw [Ambient.snd_perform_eq_hand, hreported]
    rfl

end Lexer

end RobotScript
