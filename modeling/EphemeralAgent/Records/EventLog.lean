import EphemeralAgent.Contracts.JsonRoundTrip
import EphemeralAgent.Lib.Lines
import EphemeralAgent.Lib.Transition

/-!
# The recorded events of a run

`appendEvent` and `readEvents` of the three stores under `src/runs/` of agent-engine, and the tool
`read_agent_run` over them.  A file is its text; a directory is what `join(rootDir, runId)` gives.
`appendFile` writes a long line part by part, and `readEvents` takes what it finds.

* `EventLog` — a file and the append that is under way
* `Shows` — what stands in a file: a line for each event, the last one perhaps in part
* `Following` — a caller that reads a record page by page while runs go on recording
* `log_read_back` — **each line it gets is the beginning of the next event's**, and the whole of it
  for a caller that asks when no line is there in part
-/

namespace EphemeralAgent.Records

open Lib Json

variable {D : Type}

/-! ## The store -/

/-- `${JSON.stringify(event)}\n`. -/
def eventLine (n : NumberText) (event : Json) : List Char :=
  stringify n event ++ ['\n']

/-- An `events.jsonl`: its text, if it is there, what is not written yet of the last line, and whether
some bytes of the next character are.  `events` is what has been appended; no code reads it. -/
structure EventLog where
  text : Option (List Char) := none
  left : List Char := []
  cut : Bool := false
  events : List Json := []

/-- `appendEvent` is called.  A call that has resolved leaves nothing; one that has failed leaves a
line in part, and the run's events come to no other call. -/
def EventLog.appendEvent (n : NumberText) (event : Json) (log : EventLog) : Option EventLog :=
  if log.left = [] then
    some { log with
      text := some (log.text.getD [])
      left := eventLine n event
      events := log.events ++ [event] }
  else none

/-- `appendFile` writes so many characters more, and some bytes of the one behind them. -/
def EventLog.write (count : Nat) (cut : Bool) (log : EventLog) : Option EventLog :=
  if log.left = [] then none
  else
    let left := log.left.drop count
    some { log with
      text := some (log.text.getD [] ++ log.left.take count)
      left
      cut := cut && left.head?.any fun c => 1 < c.utf8Size }

/-- U+FFFD, which is read for a character without all of its bytes. -/
def replacement : Char := Char.ofNat 0xfffd

/-- `readFile(.., "utf8")`; `none` when it throws. -/
def EventLog.readFile (log : EventLog) : Option (List Char) :=
  log.text.map fun text => if log.cut then text ++ [replacement] else text

structure EventPage where
  total : Nat
  lines : List (List Char)
  eof : Bool
  deriving DecidableEq, Repr

/-- `readEvents`. -/
def readEvents (logs : D → EventLog) (dir : D) (offset limit : Nat) : EventPage :=
  match (logs dir).readFile with
  | none => { total := 0, lines := [], eof := true }
  | some raw =>
    let lines := linesOf '\n' raw
    { total := lines.length
      lines := slice lines offset (offset + limit)
      eof := decide (lines.length ≤ offset + limit) }

/-! ## The tool -/

/-- The input of `read_agent_run`, as its schema admits it. -/
structure ReadAgentRunInput where
  runId : String
  offset : Nat := 0
  limit : Nat := 100
  named : 1 ≤ runId.length := by decide
  positive : 0 < limit := by decide
  bounded : limit ≤ 500 := by decide

inductive ReadAgentRunResult where
  | error (message : String)
  | output (total offset : Nat) (lines : List (List Char)) (eof : Bool)
  deriving DecidableEq, Repr

/-- `read_agent_run`. -/
def readAgentRun (runDir : String → D) (logs : D → EventLog) (input : ReadAgentRunInput) :
    ReadAgentRunResult :=
  let page := readEvents logs (runDir input.runId) input.offset input.limit
  if page.total = 0 then .error ("no records for run \"" ++ input.runId ++ "\"")
  else .output page.total input.offset page.lines page.eof

/-! ## One line for each event -/

theorem newline_notMem_escapeChar (c : Char) : '\n' ∉ escapeChar c := by
  have hcontrolled : ∀ n < 0x20, '\n' ∉ escapeChar (Char.ofNat n) := by decide
  by_cases hcontrol : c.toNat < 0x20
  · rw [← Char.ofNat_toNat c]
    exact hcontrolled c.toNat hcontrol
  · rcases escapeChar_cases c with ⟨-, heq⟩ | ⟨rest, -⟩
    · rw [heq, List.mem_singleton]
      rintro rfl
      exact hcontrol (by decide)
    · unfold escapeChar
      by_cases hmark : c = mark
      · rw [if_pos hmark]
        decide
      · by_cases hback : c = '\\'
        · rw [if_neg hmark, if_pos hback]
          decide
        · rw [if_neg hmark, if_neg hback]
          repeat rw [if_neg (by omega)]
          rw [List.mem_singleton]
          rintro rfl
          exact hcontrol (by decide)

theorem newline_notMem_quoted (s : String) : '\n' ∉ quoted s := by
  have hchars : ∀ cs : List Char, '\n' ∉ quotedChars cs := by
    intro cs
    induction cs with
    | nil => decide
    | cons c cs ih =>
      rw [quotedChars, List.mem_append]
      rintro (hc | hcs)
      · exact newline_notMem_escapeChar c hc
      · exact ih hcs
  unfold quoted
  rw [List.mem_cons]
  rintro (hhead | htail)
  · exact absurd hhead (by decide)
  · exact hchars s.toList htail

mutual

/-- **The text of a value is one line.** -/
theorem newline_notMem_stringify (n : NumberText) : ∀ a : Json, '\n' ∉ stringify n a
  | .null => by rw [stringify]; decide
  | .bool true => by rw [stringify]; decide
  | .bool false => by rw [stringify]; decide
  | .num value => by
    rw [stringify]
    intro hmem
    exact absurd (n.numeral value '\n' hmem) (by decide)
  | .str value => by
    rw [stringify]
    exact newline_notMem_quoted value
  | .arr items => by
    rw [stringify, List.mem_cons]
    rintro (hhead | htail)
    · exact absurd hhead (by decide)
    · exact newline_notMem_stringifyItems n items htail
  | .obj fields => by
    rw [stringify, List.mem_cons]
    rintro (hhead | htail)
    · exact absurd hhead (by decide)
    · exact newline_notMem_stringifyFields n fields htail

theorem newline_notMem_stringifyItems (n : NumberText) :
    ∀ items : List Json, '\n' ∉ stringifyItems n items
  | [] => by rw [stringifyItems]; decide
  | item :: items => by
    rw [stringifyItems_cons, List.mem_append]
    rintro (hitem | hrest)
    · exact newline_notMem_stringify n item hitem
    · have hitems := newline_notMem_stringifyItems n items
      cases items with
      | nil => exact absurd (List.mem_singleton.mp hrest) (by decide)
      | cons next items =>
        rcases List.mem_cons.mp hrest with hcomma | hrest
        · exact absurd hcomma (by decide)
        · exact hitems hrest

theorem newline_notMem_stringifyFields (n : NumberText) :
    ∀ fields : List (String × Json), '\n' ∉ stringifyFields n fields
  | [] => by rw [stringifyFields]; decide
  | (key, value) :: fields => by
    rw [stringifyFields_cons, List.mem_append, List.mem_cons, List.mem_append]
    rintro (hkey | hcolon | hvalue | hrest)
    · exact newline_notMem_quoted key hkey
    · exact absurd hcolon (by decide)
    · exact newline_notMem_stringify n value hvalue
    · have hfields := newline_notMem_stringifyFields n fields
      cases fields with
      | nil => exact absurd (List.mem_singleton.mp hrest) (by decide)
      | cons next fields =>
        rcases List.mem_cons.mp hrest with hcomma | hrest
        · exact absurd hcomma (by decide)
        · exact hfields hrest

end

/-! ## What stands in a file -/

theorem stringify_ne_nil (n : NumberText) (a : Json) : stringify n a ≠ [] := by
  obtain ⟨c, tail, heq, -⟩ := stringify_leads n a
  rw [heq]
  exact List.cons_ne_nil c tail

/-- The lines of some events, and a text without a line's end behind them. -/
theorem linesOf_events (n : NumberText) (events : List Json) {last : List Char}
    (hlast : '\n' ∉ last) : linesOf '\n' (unlines '\n' (events.map (stringify n)) ++ last) =
      events.map (stringify n) ++ if last = [] then [] else [last] := by
  refine linesOf_unlines hlast fun line hline => ?_
  obtain ⟨event, -, rfl⟩ := List.mem_map.mp hline
  exact ⟨newline_notMem_stringify n event, stringify_ne_nil n event⟩

/-- The beginning of the line of an event. -/
def Starts (n : NumberText) (event : Json) (line : List Char) : Prop :=
  ∃ part, part <+: stringify n event ∧ (line = part ∨ line = part ++ [replacement])

theorem starts_stringify (n : NumberText) (event : Json) : Starts n event (stringify n event) :=
  ⟨_, List.prefix_refl _, .inl rfl⟩

/-- The lines of a file of these events: one for each, of the last one perhaps its beginning or
nothing. -/
inductive Shows (n : NumberText) : List Json → List (List Char) → Prop
  | whole (events : List Json) : Shows n events (events.map (stringify n))
  | without (before : List Json) (event : Json) :
      Shows n (before ++ [event]) (before.map (stringify n))
  | part (before : List Json) {event : Json} {line : List Char} (hline : Starts n event line) :
      Shows n (before ++ [event]) (before.map (stringify n) ++ [line])

/-- A line of the file is the beginning of the line of its event. -/
theorem Shows.starts {n : NumberText} {events : List Json} {lines : List (List Char)}
    (h : Shows n events lines) {i : Nat} {line : List Char} (hline : lines[i]? = some line) :
    ∃ event, events[i]? = some event ∧ Starts n event line := by
  have hwhole : ∀ {events : List Json}, (events.map (stringify n))[i]? = some line →
      ∃ event, events[i]? = some event ∧ Starts n event line := by
    intro events hline
    rw [List.getElem?_map] at hline
    obtain ⟨event, hevent, rfl⟩ := Option.map_eq_some_iff.mp hline
    exact ⟨event, hevent, starts_stringify n event⟩
  cases h with
  | whole => exact hwhole hline
  | without before last =>
    obtain ⟨event, hevent, hstarts⟩ := hwhole hline
    refine ⟨event, ?_, hstarts⟩
    rw [List.getElem?_append_left (List.getElem?_eq_some_iff.mp hevent).1]
    exact hevent
  | @part before last torn htorn =>
    by_cases hi : i < before.length
    · rw [List.getElem?_append_left (by rwa [List.length_map])] at hline
      obtain ⟨event, hevent, hstarts⟩ := hwhole hline
      exact ⟨event, by rwa [List.getElem?_append_left hi], hstarts⟩
    · rw [List.getElem?_append_right (by rw [List.length_map]; omega), List.length_map] at hline
      obtain rfl := List.mem_singleton.mp (List.mem_of_getElem? hline)
      have hlast : i - before.length = 0 := by
        simpa using (List.getElem?_eq_some_iff.mp hline).1
      refine ⟨last, ?_, htorn⟩
      rw [List.getElem?_append_right (by omega), hlast]
      rfl

namespace EventLog

variable {n : NumberText} {log next : EventLog}

/-- The text is that of the lines of the events, but for what is left of the last one. -/
inductive Sound (n : NumberText) (log : EventLog) : Prop
  | whole (htext : log.text.getD [] = unlines '\n' (log.events.map (stringify n)))
      (hleft : log.left = []) (hcut : log.cut = false)
  | part {before : List Json} {event : Json} {part : List Char}
      (hevents : log.events = before ++ [event])
      (htext : log.text = some (unlines '\n' (before.map (stringify n)) ++ part))
      (hline : part ++ log.left = eventLine n event) (hleft : log.left ≠ [])

theorem Sound.append (h : log.Sound n) {event : Json} (hnext : log.appendEvent n event = some next) :
    next.Sound n := by
  obtain ⟨hnone, heq⟩ := Option.ite_none_right_eq_some.mp hnext
  cases heq
  cases h with
  | part _ _ _ hleft => exact absurd hnone hleft
  | whole htext =>
    have hfile : some (log.text.getD []) =
        some (unlines '\n' (log.events.map (stringify n)) ++ []) := by
      rw [htext, List.append_nil]
    exact .part rfl hfile rfl (by simp [eventLine])

theorem Sound.write (h : log.Sound n) {count : Nat} {cut : Bool}
    (hnext : log.write count cut = some next) : next.Sound n := by
  obtain ⟨hsome, heq⟩ := Option.ite_none_left_eq_some.mp hnext
  cases heq
  cases h with
  | whole _ hleft => exact absurd hleft hsome
  | @part before event part hevents htext hline =>
    have hsplit : log.left.take count ++ log.left.drop count = log.left := List.take_append_drop _ _
    by_cases hall : log.left.drop count = []
    · -- the line is written to its end
      rw [hall, List.append_nil] at hsplit
      refine .whole ?_ hall (by simp [hall])
      show log.text.getD [] ++ log.left.take count = unlines '\n' (log.events.map (stringify n))
      rw [htext, Option.getD_some, hsplit, List.append_assoc, hline, hevents, List.map_append,
        unlines_append, List.map_singleton, unlines_singleton]
      rfl
    · have hfile : some (log.text.getD [] ++ log.left.take count) =
          some (unlines '\n' (before.map (stringify n)) ++ (part ++ log.left.take count)) := by
        rw [htext, Option.getD_some, List.append_assoc]
      have hrest : part ++ log.left.take count ++ log.left.drop count = eventLine n event := by
        rw [List.append_assoc, hsplit, hline]
      exact .part hevents hfile hrest hall

theorem events_appendEvent {event : Json} (hnext : log.appendEvent n event = some next) :
    next.events = log.events ++ [event] := by
  obtain ⟨-, heq⟩ := Option.ite_none_right_eq_some.mp hnext
  cases heq
  rfl

theorem events_write {count : Nat} {cut : Bool} (hnext : log.write count cut = some next) :
    next.events = log.events := by
  obtain ⟨-, heq⟩ := Option.ite_none_left_eq_some.mp hnext
  cases heq
  rfl

/-- What is written of a line that is not at its end. -/
theorem prefix_of_left {event : Json} {part left : List Char}
    (hline : part ++ left = eventLine n event) (hleft : left ≠ []) : part <+: stringify n event := by
  have hlength := congrArg List.length hline
  have hpos := List.length_pos_iff.mpr hleft
  rw [eventLine, List.length_append, List.length_append, List.length_singleton] at hlength
  exact List.prefix_of_prefix_length_le ⟨left, hline⟩ (List.prefix_append _ _) (by omega)

/-- What is read of a line in part has no end. -/
theorem newline_notMem_part {event : Json} {part left : List Char} (cut : Bool)
    (hline : part ++ left = eventLine n event) (hleft : left ≠ []) :
    '\n' ∉ part ++ if cut then [replacement] else [] := by
  rw [List.mem_append]
  rintro (hpart | hcut)
  · exact newline_notMem_stringify n event ((prefix_of_left hline hleft).subset hpart)
  · cases cut with
    | true => exact absurd (List.mem_singleton.mp hcut) (by decide)
    | false => cases hcut

/-- What is read of a file with a line in part. -/
theorem readFile_part {text part : List Char} (htext : log.text = some (text ++ part)) :
    log.readFile.getD [] = text ++ (part ++ if log.cut then [replacement] else []) := by
  rw [readFile, htext, Option.map_some, Option.getD_some]
  split
  · rw [List.append_assoc]
  · rw [List.append_nil]

/-- What is read of a file whose last line is whole. -/
theorem readFile_whole (hcut : log.cut = false) : log.readFile.getD [] = log.text.getD [] := by
  rw [readFile, hcut]
  cases log.text <;> rfl

theorem linesOf_whole (htext : log.text.getD [] = unlines '\n' (log.events.map (stringify n)))
    (hcut : log.cut = false) :
    linesOf '\n' (log.readFile.getD []) = log.events.map (stringify n) := by
  have hlines := linesOf_events n log.events (List.not_mem_nil : '\n' ∉ [])
  rw [List.append_nil, if_pos rfl, List.append_nil] at hlines
  rw [readFile_whole hcut, htext, hlines]

/-- **What stands in a file.** -/
theorem Sound.shows (h : log.Sound n) :
    Shows n log.events (linesOf '\n' (log.readFile.getD [])) := by
  cases h with
  | whole htext _ hcut =>
    rw [linesOf_whole htext hcut]
    exact .whole _
  | @part before event part hevents htext hline hleft =>
    rw [readFile_part htext, linesOf_events n before (newline_notMem_part log.cut hline hleft),
      hevents]
    by_cases hread : (part ++ if log.cut then [replacement] else []) = []
    · rw [if_pos hread, List.append_nil]
      exact .without before event
    · rw [if_neg hread]
      refine .part before ⟨part, prefix_of_left hline hleft, ?_⟩
      cases log.cut with
      | true => exact .inr rfl
      | false => exact .inl (List.append_nil part)

/-- The file is empty, or ends with the end of a line. -/
def Unbroken (log : EventLog) : Prop :=
  ∀ c ∈ (log.readFile.getD []).getLast?, c = '\n'

instance (log : EventLog) : Decidable log.Unbroken :=
  Option.decidableForallMem (p := fun c => c = '\n') _

/-- A file without a line in part has the lines of the first events, and of all when no append is
under way. -/
theorem Sound.unbroken (h : log.Sound n) (hunbroken : log.Unbroken) :
    ∃ events, events <+: log.events ∧
      linesOf '\n' (log.readFile.getD []) = events.map (stringify n) ∧
      (log.left = [] → events = log.events) := by
  cases h with
  | whole htext _ hcut =>
    exact ⟨_, List.prefix_refl _, linesOf_whole htext hcut, fun _ => rfl⟩
  | @part before event part hevents htext hline hleft =>
    have hend := newline_notMem_part log.cut hline hleft
    have hnone : (part ++ if log.cut then [replacement] else []) = [] := by
      by_contra hsome
      refine hend ?_
      rw [Unbroken, readFile_part htext, List.getLast?_append_of_ne_nil _ hsome] at hunbroken
      rw [← hunbroken _ (List.getLast?_eq_getLast_of_ne_nil hsome)]
      exact List.getLast_mem hsome
    refine ⟨before, hevents ▸ List.prefix_append _ _, ?_, fun heq => absurd heq hleft⟩
    rw [readFile_part htext, linesOf_events n before hend, if_pos hnone, List.append_nil]

theorem Sound.unbroken_of_left (h : log.Sound n) (hleft : log.left = []) : log.Unbroken := by
  cases h with
  | part _ _ _ hsome => exact absurd hleft hsome
  | whole htext _ hcut =>
    intro c hc
    rw [readFile_whole hcut, htext] at hc
    exact eq_of_mem_getLast?_unlines hc

end EventLog

/-! ## A caller that reads page by page -/

/-- The runs that are recorded, and a caller that reads the record of one of them: where it stands
and the lines it has got. -/
structure Following (D : Type) where
  logs : D → EventLog := fun _ => {}
  offset : Nat := 0
  lines : List (List Char) := []

inductive FollowLabel where
  /-- `appendEvent` is called for some run. -/
  | append (runId : String) (event : Json)
  /-- `appendFile` goes on for some run. -/
  | write (runId : String) (count : Nat) (cut : Bool)
  /-- The caller asks for a page where it stands. -/
  | read (limit : Nat) (positive : 0 < limit) (bounded : limit ≤ 500)

/-- The events are values of the language, and `Json` has their numbers. -/
def FollowLabel.Recordable {n : NumberText} (reader : NumeralReader n) : FollowLabel → Prop
  | .append _ event => Legible n reader.read event
  | .write .. | .read .. => True

/-- The caller asks for a page. -/
def FollowLabel.Reads : FollowLabel → Prop
  | .append .. | .write .. => False
  | .read .. => True

instance : DecidablePred FollowLabel.Reads
  | .append .. | .write .. => isFalse not_false
  | .read .. => isTrue trivial

/-- What the caller makes of an answer. -/
def Following.take (s : Following D) : ReadAgentRunResult → Following D
  | .error _ => s
  | .output _ _ lines _ => { s with offset := s.offset + lines.length, lines := s.lines ++ lines }

/-- The answer to an input, by the lines of the file. -/
def expectedPage (lines : List (List Char)) (input : ReadAgentRunInput) : ReadAgentRunResult :=
  if lines = [] then .error ("no records for run \"" ++ input.runId ++ "\"")
  else .output lines.length input.offset (slice lines input.offset (input.offset + input.limit))
    (decide (lines.length ≤ input.offset + input.limit))

theorem readAgentRun_eq (runDir : String → D) (logs : D → EventLog) (input : ReadAgentRunInput) :
    readAgentRun runDir logs input =
      expectedPage (linesOf '\n' ((logs (runDir input.runId)).readFile.getD [])) input := by
  unfold readAgentRun readEvents expectedPage
  cases (logs (runDir input.runId)).readFile with
  | none => rfl
  | some raw => simp only [Option.getD_some, List.length_eq_zero_iff]

section Following

variable [DecidableEq D] (n : NumberText) (runDir : String → D) (runId : String)
  (named : 1 ≤ runId.length)

def Following.step (s : Following D) : FollowLabel → Option (Following D)
  | .append runId event =>
    ((s.logs (runDir runId)).appendEvent n event).map fun log =>
      { s with logs := Function.update s.logs (runDir runId) log }
  | .write runId count cut =>
    ((s.logs (runDir runId)).write count cut).map fun log =>
      { s with logs := Function.update s.logs (runDir runId) log }
  | .read limit positive bounded =>
    let input : ReadAgentRunInput := { runId, offset := s.offset, limit, named, positive, bounded }
    some (s.take (readAgentRun runDir s.logs input))

/-- The lines that the caller finds. -/
def Following.found (s : Following D) : List (List Char) :=
  linesOf '\n' ((s.logs (runDir runId)).readFile.getD [])

/-- What the files hold, and that each line of the caller is the beginning of its event's. -/
structure Followed (s : Following D) : Prop where
  sound : ∀ dir, (s.logs dir).Sound n
  length : s.lines.length = s.offset
  starts : ∀ (i : Nat) (line : List Char), s.lines[i]? = some line →
    ∃ event, (s.logs (runDir runId)).events[i]? = some event ∧ Starts n event line

/-- The events are values of the language, and the caller has got the lines of the first ones. -/
structure Took {n : NumberText} (reader : NumeralReader n) (s : Following D) : Prop where
  legible : ∀ dir, ∀ event ∈ (s.logs dir).events, Legible n reader.read event
  bounded : s.offset ≤ (s.logs (runDir runId)).events.length
  lines : s.lines = ((s.logs (runDir runId)).events.take s.offset).map (stringify n)

/-- The caller asks only when no line is there in part. -/
def Patient {n : NumberText} (reader : NumeralReader n) (s : Following D) (label : FollowLabel) :
    Prop :=
  label.Recordable reader ∧ (label.Reads → (s.logs (runDir runId)).Unbroken)

variable {n runDir runId named} {s t : Following D} {reader : NumeralReader n}

/-- A page moves the caller on by as many lines as there are. -/
theorem read_eq (limit : Nat) (positive : 0 < limit) (bounded : limit ≤ 500) :
    s.step n runDir runId named (.read limit positive bounded) = some { s with
      offset := s.offset + (slice (s.found runDir runId) s.offset (s.offset + limit)).length
      lines := s.lines ++ slice (s.found runDir runId) s.offset (s.offset + limit) } := by
  simp only [Following.step, readAgentRun_eq]
  show some (s.take (expectedPage (s.found runDir runId) _)) = _
  unfold expectedPage
  by_cases hnone : s.found runDir runId = []
  · rw [if_pos hnone, hnone]
    simp [Following.take, slice]
  · rw [if_neg hnone]
    rfl

omit [DecidableEq D] in
theorem followed_start : Followed n runDir runId {} where
  sound := fun _ => .whole rfl rfl rfl
  length := rfl
  starts i line h := by cases h

/-- What has been appended stays, in every file. -/
theorem events_update {logs : D → EventLog} {dir : D} {log : EventLog}
    (h : (logs dir).events <+: log.events) (other : D) :
    (logs other).events <+: (Function.update logs dir log other).events := by
  by_cases hdir : other = dir
  · subst hdir
    rwa [Function.update_self]
  · have hsame : Function.update logs dir log other = logs other := Function.update_of_ne hdir _ _
    exact hsame ▸ List.prefix_refl _

/-- Another event or more of its line in some file. -/
theorem Followed.update (h : Followed n runDir runId s) {dir : D} {log : EventLog}
    (hlog : log.Sound n) (hevents : (s.logs dir).events <+: log.events) :
    Followed n runDir runId { s with logs := Function.update s.logs dir log } where
  sound other := by
    by_cases hdir : other = dir
    · subst hdir
      show (Function.update s.logs other log other).Sound n
      rwa [Function.update_self]
    · show (Function.update s.logs dir log other).Sound n
      rw [Function.update_of_ne hdir]
      exact h.sound other
  length := h.length
  starts i line hline := by
    obtain ⟨event, hevent, hstarts⟩ := h.starts i line hline
    obtain ⟨more, hmore⟩ := events_update hevents (runDir runId)
    refine ⟨event, ?_, hstarts⟩
    show (Function.update s.logs dir log (runDir runId)).events[i]? = some event
    rw [← hmore, List.getElem?_append_left (List.getElem?_eq_some_iff.mp hevent).1]
    exact hevent

omit [DecidableEq D] in
/-- A page of the lines that the caller finds. -/
theorem Followed.read (h : Followed n runDir runId s) (limit : Nat) :
    Followed n runDir runId { s with
      offset := s.offset + (slice (s.found runDir runId) s.offset (s.offset + limit)).length
      lines := s.lines ++ slice (s.found runDir runId) s.offset (s.offset + limit) } where
  sound := h.sound
  length := by rw [List.length_append, h.length]
  starts i line hline := by
    by_cases hold : i < s.lines.length
    · rw [List.getElem?_append_left hold] at hline
      exact h.starts i line hline
    · -- the line has the same place in the file
      have hlength := h.length
      rw [List.getElem?_append_right (by omega), slice_add] at hline
      have hwithin : i - s.lines.length < limit := by
        have hplace := (List.getElem?_eq_some_iff.mp hline).1
        rw [List.length_take] at hplace
        omega
      rw [List.getElem?_take_of_lt hwithin, List.getElem?_drop,
        show s.offset + (i - s.lines.length) = i by omega] at hline
      exact (h.sound (runDir runId)).shows.starts hline

theorem followed_step {label : FollowLabel} (h : Followed n runDir runId s)
    (hstep : s.step n runDir runId named label = some t) : Followed n runDir runId t := by
  cases label with
  | append runId' event =>
    obtain ⟨log, hlog, rfl⟩ := Option.map_eq_some_iff.mp hstep
    have hevents := EventLog.events_appendEvent hlog
    exact h.update ((h.sound _).append hlog) (hevents ▸ List.prefix_append _ _)
  | write runId' count cut =>
    obtain ⟨log, hlog, rfl⟩ := Option.map_eq_some_iff.mp hstep
    have hevents := EventLog.events_write hlog
    exact h.update ((h.sound _).write hlog) (hevents ▸ List.prefix_refl _)
  | read limit positive bounded =>
    rw [read_eq, Option.some.injEq] at hstep
    subst hstep
    exact h.read limit

/-! ## A patient caller -/

omit [DecidableEq D] in
theorem took_start : Took runDir runId reader {} where
  legible := fun _ _ h => by cases h
  bounded := Nat.zero_le _
  lines := rfl

theorem Took.update (h : Took runDir runId reader s) {dir : D} {log : EventLog}
    (hlog : ∀ event ∈ log.events, Legible n reader.read event)
    (hevents : (s.logs dir).events <+: log.events) :
    Took runDir runId reader { s with logs := Function.update s.logs dir log } := by
  have hmore := events_update hevents (runDir runId)
  refine ⟨fun other event hevent => ?_, h.bounded.trans hmore.length_le, ?_⟩
  · by_cases hdir : other = dir
    · subst hdir
      dsimp only at hevent
      rw [Function.update_self] at hevent
      exact hlog event hevent
    · dsimp only at hevent
      rw [Function.update_of_ne hdir] at hevent
      exact h.legible other event hevent
  · show s.lines = ((Function.update s.logs dir log (runDir runId)).events.take s.offset).map _
    obtain ⟨more, hmore⟩ := hmore
    rw [← hmore, List.take_append_of_le_length h.bounded]
    exact h.lines

omit [DecidableEq D] in
/-- A page of a file with no line in part, and how far it brings the caller when no append is under
way. -/
theorem Took.read (h : Took runDir runId reader s) (hsound : (s.logs (runDir runId)).Sound n)
    (hunbroken : (s.logs (runDir runId)).Unbroken) (limit : Nat) :
    Took runDir runId reader { s with
        offset := s.offset + (slice (s.found runDir runId) s.offset (s.offset + limit)).length
        lines := s.lines ++ slice (s.found runDir runId) s.offset (s.offset + limit) } ∧
      ((s.logs (runDir runId)).left = [] →
        s.offset + (slice (s.found runDir runId) s.offset (s.offset + limit)).length =
          min (s.offset + limit) (s.logs (runDir runId)).events.length) := by
  obtain ⟨events, hfirst, hfound, hall⟩ := hsound.unbroken hunbroken
  have hpage : slice (s.found runDir runId) s.offset (s.offset + limit) =
      (slice events s.offset (s.offset + limit)).map (stringify n) := by
    rw [Following.found, hfound, map_slice]
  have hlength := length_slice_add events s.offset limit
  have hbounded := h.bounded
  have hle := hfirst.length_le
  rw [hpage, List.length_map]
  refine ⟨⟨h.legible, ?_, ?_⟩, fun hleft => ?_⟩
  · show s.offset + (slice events s.offset (s.offset + limit)).length ≤
      (s.logs (runDir runId)).events.length
    omega
  · show s.lines ++ _ = _
    rw [h.lines, ← List.map_append, take_append_slice_of_prefix hfirst]
  · rw [hlength, hall hleft]
    omega

theorem took_step {label : FollowLabel} (hfollowed : Followed n runDir runId s)
    (h : Took runDir runId reader s) (hlabel : Patient runDir runId reader s label)
    (hstep : s.step n runDir runId named label = some t) : Took runDir runId reader t := by
  cases label with
  | append runId' event =>
    obtain ⟨log, hlog, rfl⟩ := Option.map_eq_some_iff.mp hstep
    have hevents := EventLog.events_appendEvent hlog
    refine h.update (fun other hother => ?_) (hevents ▸ List.prefix_append _ _)
    rw [hevents, List.mem_append, List.mem_singleton] at hother
    rcases hother with hother | rfl
    · exact h.legible _ other hother
    · exact hlabel.1
  | write runId' count cut =>
    obtain ⟨log, hlog, rfl⟩ := Option.map_eq_some_iff.mp hstep
    have hevents := EventLog.events_write hlog
    refine h.update (fun other hother => ?_) (hevents ▸ List.prefix_refl _)
    exact h.legible _ other (hevents ▸ hother)
  | read limit positive bounded =>
    rw [read_eq, Option.some.injEq] at hstep
    subst hstep
    exact (h.read (hfollowed.sound _) (hlabel.2 trivial) limit).1

/-! ## Every run -/

/-- The events that a schedule appends to one directory. -/
def appended (runDir : String → D) (dir : D) (labels : List FollowLabel) : List Json :=
  labels.filterMap fun label =>
    match label with
    | .append runId event => if runDir runId = dir then some event else none
    | .write .. | .read .. => none

/-- How many lines a schedule asks for. -/
def requested (labels : List FollowLabel) : Nat :=
  (labels.map fun label =>
    match label with
    | .append .. | .write .. => 0
    | .read limit _ _ => limit).sum

theorem followed_of_run {P : Following D → FollowLabel → Prop} {labels : List FollowLabel}
    (run : Run (Following.step n runDir runId named) P {} labels s) : Followed n runDir runId s :=
  run.invariant followed_start fun _ _ _ _ h hstep => followed_step h hstep

theorem events_of_run {P : Following D → FollowLabel → Prop} {labels : List FollowLabel}
    (run : Run (Following.step n runDir runId named) P {} labels s) (dir : D) :
    (s.logs dir).events = appended runDir dir labels := by
  induction run with
  | nil => rfl
  | @snoc s t labels label run hlabel hstep ih =>
    unfold appended at ih ⊢
    rw [List.filterMap_append, ← ih]
    cases label with
    | append runId' event =>
      obtain ⟨log, hlog, rfl⟩ := Option.map_eq_some_iff.mp hstep
      show (Function.update s.logs _ log dir).events = _
      by_cases hdir : runDir runId' = dir
      · subst hdir
        rw [Function.update_self, EventLog.events_appendEvent hlog]
        simp
      · rw [Function.update_of_ne (Ne.symm hdir)]
        simp [hdir]
    | write runId' count cut =>
      obtain ⟨log, hlog, rfl⟩ := Option.map_eq_some_iff.mp hstep
      show (Function.update s.logs _ log dir).events = (s.logs dir).events ++ []
      by_cases hdir : runDir runId' = dir
      · subst hdir
        rw [Function.update_self, EventLog.events_write hlog, List.append_nil]
      · rw [Function.update_of_ne (Ne.symm hdir), List.append_nil]
    | read limit positive bounded =>
      rw [read_eq, Option.some.injEq] at hstep
      subst hstep
      exact (List.append_nil _).symm

/-- Pages alone bring the caller forward, as far as there are events. -/
theorem took_of_reads {labels : List FollowLabel} (hfollowed : Followed n runDir runId s)
    (h : Took runDir runId reader s) (hleft : (s.logs (runDir runId)).left = [])
    (run : Run (Following.step n runDir runId named) (fun _ label => label.Reads) s labels t) :
    Followed n runDir runId t ∧ Took runDir runId reader t ∧ t.logs = s.logs ∧
      t.offset = min (s.offset + requested labels) (s.logs (runDir runId)).events.length := by
  induction run with
  | nil =>
    refine ⟨hfollowed, h, rfl, ?_⟩
    show s.offset = min (s.offset + 0) _
    have := h.bounded
    omega
  | @snoc t u labels label run hlabel hstep ih =>
    obtain ⟨hfollowed', htook, hlogs, hoffset⟩ := ih
    cases label with
    | append runId' event => exact absurd hlabel not_false
    | write runId' count cut => exact absurd hlabel not_false
    | read limit positive bounded =>
      have hnext := followed_step hfollowed' hstep
      rw [read_eq, Option.some.injEq] at hstep
      subst hstep
      rw [← hlogs] at hleft
      have hsound := hfollowed'.sound (runDir runId)
      obtain ⟨htook', hmoved⟩ := htook.read hsound (hsound.unbroken_of_left hleft) limit
      have hrequested : requested (labels ++ [.read limit positive bounded]) =
          requested labels + limit := by
        unfold requested
        rw [List.map_append, List.sum_append]
        rfl
      refine ⟨hnext, htook', hlogs, ?_⟩
      refine (hmoved hleft).trans ?_
      rw [hoffset, hlogs, hrequested]
      omega

omit [DecidableEq D] in
/-- The lines of a patient caller are read as the first events. -/
theorem Took.parsed (h : Took runDir runId reader s) : s.lines.map (parse reader.read) =
    ((s.logs (runDir runId)).events.take s.offset).map some := by
  rw [h.lines, List.map_map]
  refine List.map_congr_left fun event hevent => ?_
  exact parse_stringify (h.legible _ event (List.mem_of_mem_take hevent))

/-- **A record that is read page by page while it grows.**  Every answer of the tool is a page of
what stands in the file, and each line that the caller gets is the beginning of the next event's.
One that asks only when no line is there in part gets lines that are read as the first events, each
once and in order, and comes to the last of them when no append is under way. -/
theorem log_read_back (reader : NumeralReader n) {labels : List FollowLabel}
    (run : Run (Following.step n runDir runId named) Free {} labels s) :
    (∀ input, ∃ lines, Shows n (appended runDir (runDir input.runId) labels) lines ∧
      readAgentRun runDir s.logs input = expectedPage lines input) ∧
    (s.lines.length = s.offset ∧ ∀ (i : Nat) (line : List Char), s.lines[i]? = some line →
      ∃ event, (appended runDir (runDir runId) labels)[i]? = some event ∧ Starts n event line) ∧
    (Run (Following.step n runDir runId named) (Patient runDir runId reader) {} labels s →
      s.lines.map (parse reader.read) =
          ((appended runDir (runDir runId) labels).take s.offset).map some ∧
        ((s.logs (runDir runId)).left = [] → ∀ (reads : List FollowLabel) (t : Following D),
          Run (Following.step n runDir runId named) (fun _ label => label.Reads) s reads t →
          t.lines.map (parse reader.read) =
            ((appended runDir (runDir runId) labels).take (s.offset + requested reads)).map some)) := by
  have h := followed_of_run run
  refine ⟨fun input => ⟨_, ?_, readAgentRun_eq runDir s.logs input⟩,
    ⟨h.length, fun i line hline => ?_⟩, fun patient => ?_⟩
  · rw [← events_of_run run]
    exact (h.sound _).shows
  · rw [← events_of_run run]
    exact h.starts i line hline
  · have htook : Took runDir runId reader s := by
      refine patient.invariant_of (J := Followed n runDir runId) followed_of_run took_start ?_
      exact fun _ _ _ hlabel hfollowed htook hstep => took_step hfollowed htook hlabel hstep
    refine ⟨by rw [htook.parsed, events_of_run run], fun hleft reads t hreads => ?_⟩
    obtain ⟨-, htook', hlogs, hoffset⟩ := took_of_reads h htook hleft hreads
    rw [htook'.parsed, hlogs, hoffset, events_of_run run, ← List.take_eq_take_min]

end Following

/-- Two runs are recorded.  The caller asks before the events of the first one, when nothing of the
second line has been written, and when nothing of the third has. -/
def sampleRecords : List FollowLabel :=
  [.read 5 (by decide) (by decide), .append "agent-1" (.obj [("seq", .num 0)]),
    .write "agent-1" 100 false, .append "agent-2" (.str "other"),
    .append "agent-1" (.obj [("text", .str "a\nb"), ("seq", .num 1)]),
    .read 5 (by decide) (by decide), .write "agent-1" 4 false, .write "agent-1" 100 false,
    .append "agent-1" (.obj [("seq", .num 2)]), .read 5 (by decide) (by decide),
    .write "agent-1" 2 false]

theorem sampleRecords_recordable :
    ∀ label ∈ sampleRecords, label.Recordable quotientReader.numerals := by
  have hread : ∀ k, quotientReader.numerals.read (quotients.text k) = some k :=
    quotientReader.read_text
  intro label hlabel
  simp only [sampleRecords, List.mem_cons, List.not_mem_nil, or_false] at hlabel
  rcases hlabel with rfl | rfl | rfl | rfl | rfl | rfl | rfl | rfl | rfl | rfl | rfl
  · trivial
  · exact ⟨by decide, rfl, hread 0, trivial⟩
  · trivial
  · trivial
  · exact ⟨by decide, rfl, trivial, hread 1, trivial⟩
  · trivial
  · trivial
  · trivial
  · exact ⟨by decide, rfl, hread 2, trivial⟩
  · trivial
  · trivial

/-- The caller has got two events whole, and of the third line two characters are there. -/
theorem log_read_back_sample :
    ∃ s : Following String,
      Run (Following.step quotients id "agent-1" (by decide))
        (Patient id "agent-1" quotientReader.numerals) {} sampleRecords s ∧
      s.lines.map (parse quotientReader.read) =
        [some (.obj [("seq", .num 0)]), some (.obj [("text", .str "a\nb"), ("seq", .num 1)])] ∧
      ∃ lines, Shows quotients (appended id "agent-1" sampleRecords) lines ∧
        readAgentRun id s.logs { runId := "agent-1", offset := 2 } =
          expectedPage lines { runId := "agent-1", offset := 2 } ∧
        expectedPage lines { runId := "agent-1", offset := 2 } =
          .output 3 2 [['{', mark]] true := by
  obtain ⟨s, run, hs⟩ := exists_run (Following.step quotients id "agent-1" (by decide))
    (fun s label => label.Reads → (s.logs "agent-1").Unbroken) {} sampleRecords
    (fun s => s.offset == 2 && decide (readAgentRun id s.logs { runId := "agent-1", offset := 2 } =
      .output 3 2 [['{', mark]] true)) (by decide +kernel)
  simp only [Bool.and_eq_true, beq_iff_eq, decide_eq_true_eq] at hs
  obtain ⟨hanswers, -, hpatient⟩ := log_read_back quotientReader.numerals run.free
  have patient := run.with_labels sampleRecords_recordable
  have hback := (hpatient patient).1
  rw [hs.1] at hback
  obtain ⟨lines, hshows, hpage⟩ := hanswers { runId := "agent-1", offset := 2 }
  exact ⟨s, patient, hback, lines, hshows, hpage, hpage.symm.trans hs.2⟩

end EphemeralAgent.Records
