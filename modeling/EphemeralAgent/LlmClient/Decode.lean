import EphemeralAgent.Lib.Sessions
import EphemeralAgent.LlmClient.Wire

/-!
# A decoder over a whole stream

* `decode` — `handle`, one event of the provider after the other
* `decode_snoc`, `decode_concat` — the last event by itself
* `decode_relation`, `decode_invariant` — what one event keeps, a stream keeps
* `Parses` — of what kind the texts are that a stream makes the decoder parse
* `lastReport` — what the last event that reports something has reported
-/

namespace EphemeralAgent.LlmClient

section Decode

variable {D C E O : Type*}

/-- The decoder after these events, and what it has yielded. -/
def decode (handle : D → C → Except E (D × Option O)) : D → List C → Except E (D × List O)
  | d, [] => .ok (d, [])
  | d, event :: rest =>
    (handle d event).bind fun next =>
      (decode handle next.1 rest).map fun found => (found.1, next.2.toList ++ found.2)

variable {handle : D → C → Except E (D × Option O)}

theorem decode_cons {d d' d'' : D} {event : C} {rest : List C} {yielded : Option O}
    {later : List O} (hhandle : handle d event = .ok (d', yielded))
    (hrest : decode handle d' rest = .ok (d'', later)) :
    decode handle d (event :: rest) = .ok (d'', yielded.toList ++ later) := by
  simp only [decode, hhandle, Except.bind, hrest, Except.map]

/-- The next event, which may yield nothing. -/
theorem decode_snoc {d d' d'' : D} {events : List C} {event : C} {emitted : List O}
    {yielded : Option O} (hevents : decode handle d events = .ok (d', emitted))
    (hevent : handle d' event = .ok (d'', yielded)) :
    decode handle d (events ++ [event]) = .ok (d'', emitted ++ yielded.toList) := by
  induction events generalizing d emitted with
  | nil =>
    cases hevents
    simp only [List.nil_append, decode, hevent, Except.bind, Except.map, List.append_nil]
  | cons first rest ih =>
    cases hfirst : handle d first with
    | error error => simp [decode, hfirst, Except.bind] at hevents
    | ok next =>
      cases hrest : decode handle next.1 rest with
      | error error => simp [decode, hfirst, Except.bind, hrest, Except.map] at hevents
      | ok found =>
        rw [decode_cons hfirst hrest] at hevents
        cases hevents
        rw [List.cons_append, List.append_assoc]
        exact decode_cons hfirst (ih hrest)

theorem decode_concat {d d' d'' : D} {events : List C} {event : C} {emitted : List O} {last : O}
    (hevents : decode handle d events = .ok (d', emitted))
    (hlast : handle d' event = .ok (d'', some last)) :
    decode handle d (events ++ [event]) = .ok (d'', emitted ++ [last]) :=
  decode_snoc hevents hlast

theorem decode_relation_from {R : D → List C → List O → Prop}
    (hhandle : ∀ {d past emitted chunk d' yielded}, R d past emitted →
      handle d chunk = .ok (d', yielded) → R d' (past ++ [chunk]) (emitted ++ yielded.toList))
    (chunks : List C) : ∀ {d d' : D} (past : List C) (emitted : List O) {more : List O},
      R d past emitted → decode handle d chunks = .ok (d', more) →
        R d' (past ++ chunks) (emitted ++ more) := by
  induction chunks with
  | nil =>
    intro d d' past emitted more h hdecode
    cases hdecode
    rw [List.append_nil, List.append_nil]
    exact h
  | cons chunk rest ih =>
    intro d d' past emitted more h hdecode
    rw [decode] at hdecode
    cases hfirst : handle d chunk with
    | error error =>
      rw [hfirst] at hdecode
      cases hdecode
    | ok next =>
      rw [hfirst] at hdecode
      cases hrest : decode handle next.1 rest with
      | error error =>
        simp only [Except.bind, hrest, Except.map] at hdecode
        cases hdecode
      | ok found =>
        simp only [Except.bind, hrest, Except.map] at hdecode
        cases hdecode
        have hnext := ih _ _ (hhandle h hfirst) hrest
        rw [List.append_assoc, List.append_assoc] at hnext
        exact hnext

/-- What one event keeps of a decoder, its events and what it has yielded, a stream keeps. -/
theorem decode_relation {R : D → List C → List O → Prop}
    (hhandle : ∀ {d past emitted chunk d' yielded}, R d past emitted →
      handle d chunk = .ok (d', yielded) → R d' (past ++ [chunk]) (emitted ++ yielded.toList))
    {d d' : D} {chunks : List C} {emitted : List O} (h : R d [] [])
    (hdecode : decode handle d chunks = .ok (d', emitted)) : R d' chunks emitted :=
  decode_relation_from hhandle chunks [] [] h hdecode

/-- What holds of every decoder and of all that it yields. -/
theorem decode_invariant {I : D → Prop} {P : O → Prop}
    (hhandle : ∀ {d chunk d' yielded}, I d → handle d chunk = .ok (d', yielded) →
      I d' ∧ ∀ item ∈ yielded, P item) {d d' : D} {chunks : List C} {emitted : List O} (h : I d)
    (hdecode : decode handle d chunks = .ok (d', emitted)) : ∀ item ∈ emitted, P item := by
  refine (decode_relation (R := fun d _ emitted => I d ∧ ∀ item ∈ emitted, P item) ?_
    ⟨h, fun _ hitem => absurd hitem List.not_mem_nil⟩ hdecode).2
  rintro d past emitted chunk d' yielded ⟨hd, hemitted⟩ hnext
  obtain ⟨hd', hyielded⟩ := hhandle hd hnext
  refine ⟨hd', fun item hitem => ?_⟩
  rcases List.mem_append.mp hitem with hold | hnew
  · exact hemitted item hold
  · exact hyielded item (Option.mem_toList.mp hnew)

/-- Every text that is parsed on the way is of this kind. -/
def Parses (handle : D → C → Except E (D × Option O)) (parsed : D → C → Option String)
    (P : String → Prop) : D → List C → Prop
  | _, [] => True
  | d, event :: rest =>
    (∀ text ∈ parsed d event, P text) ∧
      ∀ d' yielded, handle d event = .ok (d', yielded) → Parses handle parsed P d' rest

/-- What holds of every decoder and of all that it yields, when it parses such texts only. -/
theorem decode_invariant_of_parses {parsed : D → C → Option String} {P : String → Prop}
    {I : D → Prop} {Q : O → Prop}
    (hhandle : ∀ {d chunk d' yielded}, I d → (∀ text ∈ parsed d chunk, P text) →
      handle d chunk = .ok (d', yielded) → I d' ∧ ∀ item ∈ yielded, Q item)
    {d d' : D} {chunks : List C} {emitted : List O} (h : I d)
    (hparses : Parses handle parsed P d chunks)
    (hdecode : decode handle d chunks = .ok (d', emitted)) : ∀ item ∈ emitted, Q item := by
  induction chunks generalizing d emitted with
  | nil =>
    cases hdecode
    exact fun item hitem => absurd hitem List.not_mem_nil
  | cons chunk rest ih =>
    rw [decode] at hdecode
    cases hfirst : handle d chunk with
    | error error =>
      rw [hfirst] at hdecode
      cases hdecode
    | ok next =>
      rw [hfirst] at hdecode
      obtain ⟨hd, hyielded⟩ := hhandle h hparses.1 hfirst
      cases hrest : decode handle next.1 rest with
      | error error =>
        simp only [Except.bind, hrest, Except.map] at hdecode
        cases hdecode
      | ok found =>
        simp only [Except.bind, hrest, Except.map] at hdecode
        cases hdecode
        intro item hitem
        rcases List.mem_append.mp hitem with hnew | hlater
        · exact hyielded item (Option.mem_toList.mp hnew)
        · exact ih hd (hparses.2 _ _ hfirst) hrest item hlater

end Decode

section Reports

variable {C α : Type*}

/-- What the last event that reports something has reported. -/
def lastReport (report : C → Option α) (events : List C) : Option α :=
  (events.filterMap report).getLast?

theorem lastReport_cons (report : C → Option α) (event : C) (rest : List C) :
    lastReport report (event :: rest) = (lastReport report rest).or (report event) := by
  unfold lastReport
  rw [List.filterMap_cons]
  cases report event with
  | none => simp
  | some value =>
    rw [List.getLast?_cons]
    cases (rest.filterMap report).getLast? <;> rfl

end Reports

/-! ## What a stream yields -/

/-- The text of an `assistant_text_delta`. -/
def LlmStreamEvent.asText : LlmStreamEvent → Option String
  | .assistantTextDelta text => some text
  | _ => none

/-- The call of a `tool_use_delta`. -/
def LlmStreamEvent.asToolUse : LlmStreamEvent → Option ToolUseBlock
  | .toolUseDelta toolUseId name input => some { toolUseId, name, input }
  | _ => none

end EphemeralAgent.LlmClient
