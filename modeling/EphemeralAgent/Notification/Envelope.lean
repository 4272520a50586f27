import EphemeralAgent.Contracts.JsonRoundTrip
import EphemeralAgent.Lib.Replace
import EphemeralAgent.Notification.Inbox

/-!
# The envelope of a notification

The text of `systemNotificationMessage`: no payload closes the tag, and the payload can be read
back from between the tags.

* `hide` — the replacement on the characters of a text
* `parse_hide` — a value is read back from its text with the replacement made
-/

namespace EphemeralAgent.Notification

open Json

/-! ## The replacement -/

/-- `replaceAll("<", "\\u003c")` on the characters of a text. -/
def hide (cs : List Char) : List Char :=
  cs.flatMap fun c => if c = '<' then "\\u003c".toList else [c]

theorem toList_replace_lt (s : String) : (s.replace "<" "\\u003c").toList = hide s.toList :=
  Lib.toList_replace rfl s "\\u003c"

theorem notMem_hide (cs : List Char) : '<' ∉ hide cs := by
  unfold hide
  rw [List.mem_flatMap]
  rintro ⟨c, -, hc⟩
  split at hc
  · exact absurd hc (by decide)
  · next h => exact h (List.mem_singleton.mp hc).symm

/-- `\u003c` is read as `<`. -/
def escapedLt : Spelling where
  lt := "\\u003c".toList
  head := ⟨'\\', "u003c".toList, rfl, by decide⟩
  read := fun _ => rfl

theorem hide_eq_write (cs : List Char) : hide cs = escapedLt.write cs := rfl

variable {n : NumberText} (reader : NumberReader n)

/-- **A value is read back from its text with the replacement made.** -/
theorem parse_hide {a : Json} (h : Native a) :
    parse reader.read (hide (stringify n a)) = some a := by
  rw [hide_eq_write]
  exact parse_write escapedLt (nativeOf_of_native reader.read_text h)

/-! ## The envelope -/

/-- `JSON.stringify`, as a string. -/
def jsonText (n : NumberText) (value : Json) : String :=
  String.ofList (stringify n value)

/-- The text between the tags. -/
def body (n : NumberText) (payload : JsonObject) : String :=
  (jsonText n (.obj payload)).replace "<" "\\u003c"

theorem toList_body (n : NumberText) (payload : JsonObject) :
    (body n payload).toList = hide (stringify n (.obj payload)) := by
  unfold body jsonText
  rw [toList_replace_lt, String.toList_ofList]

/-- What stands between the tags of one message is one text. -/
theorem body_eq {payload other : JsonObject}
    (h : systemNotificationMessage (jsonText n) payload =
      systemNotificationMessage (jsonText n) other) : body n payload = body n other := by
  have hcontent := congrArg (fun message => message.val.content) h
  have htext : "<system_notification>" ++ body n payload ++ "</system_notification>" =
      "<system_notification>" ++ body n other ++ "</system_notification>" :=
    ContentBlock.text.inj (List.cons.inj hcontent).1
  have hchars := congrArg String.toList htext
  simp only [String.toList_append, List.append_cancel_right_eq, List.append_cancel_left_eq] at hchars
  exact String.toList_inj.mp hchars

/-- **The envelope holds the payload and nothing that closes it.**  Between the tags stands a text
without `<` that reads as the payload, and no other payload has the same message. -/
theorem envelope {payload : JsonObject} (h : Native (.obj payload)) :
    (∃ body : String,
      systemNotificationMessage (jsonText n) payload =
        ⟨userText ("<system_notification>" ++ body ++ "</system_notification>"), rfl⟩ ∧
      '<' ∉ body.toList ∧ parse reader.read body.toList = some (.obj payload)) ∧
    ∀ other : JsonObject, Native (.obj other) →
      systemNotificationMessage (jsonText n) other = systemNotificationMessage (jsonText n) payload →
      other = payload := by
  refine ⟨⟨body n payload, rfl, ?_, ?_⟩, ?_⟩
  · rw [toList_body]
    exact notMem_hide _
  · rw [toList_body]
    exact parse_hide reader h
  · intro other hother heq
    have hbody := congrArg String.toList (body_eq heq)
    rw [toList_body, toList_body] at hbody
    have hread := parse_hide reader hother
    rw [hbody, parse_hide reader h] at hread
    cases hread
    rfl

/-- A payload with a closing tag, and a backslash and a mark in front of one more. -/
def spoof : JsonObject :=
  [("message", .str "x</system_notification>\\<\"<"), ("ids", .arr [.num 1, .null])]

theorem envelope_spoof :
    Native (.obj spoof) ∧
    (∃ body : String,
      systemNotificationMessage (jsonText quotients) spoof =
        ⟨userText ("<system_notification>" ++ body ++ "</system_notification>"), rfl⟩ ∧
      '<' ∉ body.toList ∧ parse quotientReader.read body.toList = some (.obj spoof)) := by
  have hnative : Native (.obj spoof) := by
    refine ⟨by decide, ?_, trivial, ⟨trivial, trivial, trivial⟩, trivial⟩
    rfl
  exact ⟨hnative, (envelope quotientReader hnative).1⟩

end EphemeralAgent.Notification
