import Mathlib.Data.List.Basic

/-!
# Texts of lines

A text of lines, the last one perhaps without its end, read as its non-empty lines, and a page of a
list.

* `linesOf` — the non-empty parts between the separators
* `linesOf_unlines` — the lines that were written are read, whatever stands in them but a separator
* `slice` — a page, and `take_append_slice` — a page joined to what stands before it
-/

namespace EphemeralAgent.Lib

variable {α : Type*}

/-! ## Lines -/

section Lines

variable {sep : α} {line : List α}

/-- The text of some lines, each with a separator behind it. -/
def unlines (sep : α) (lines : List (List α)) : List α :=
  lines.flatMap (· ++ [sep])

theorem unlines_append (lines lines' : List (List α)) :
    unlines sep (lines ++ lines') = unlines sep lines ++ unlines sep lines' :=
  List.flatMap_append

@[simp] theorem unlines_singleton (line : List α) : unlines sep [line] = line ++ [sep] :=
  List.append_nil _

/-- A text of lines ends with a separator. -/
theorem eq_of_mem_getLast?_unlines {lines : List (List α)} {c : α}
    (h : c ∈ (unlines sep lines).getLast?) : c = sep := by
  rcases List.eq_nil_or_concat lines with rfl | ⟨before, last, rfl⟩
  · cases h
  · rw [List.concat_eq_append, unlines_append, unlines_singleton, ← List.append_assoc,
      List.getLast?_concat] at h
    exact (Option.some.inj h).symm

variable [DecidableEq α]

/-- The parts between the separators that are not empty. -/
def linesOf (sep : α) (text : List α) : List (List α) :=
  (text.splitOn sep).filter fun line => decide (0 < line.length)

/-- The first line. -/
theorem linesOf_line (hsep : sep ∉ line) (hne : line ≠ []) (rest : List α) :
    linesOf sep (line ++ sep :: rest) = line :: linesOf sep rest := by
  have hsplit : (line ++ sep :: rest).splitOn sep = line :: rest.splitOn sep :=
    List.splitOn_append_cons_self_of_not_mem hsep rest
  have hlength : 0 < line.length := List.length_pos_iff.mpr hne
  unfold linesOf
  rw [hsplit, List.filter_cons_of_pos (by simpa using hlength)]

/-- A text without separators is a line, unless it is empty. -/
theorem linesOf_eq_self (hsep : sep ∉ line) :
    linesOf sep line = if line = [] then [] else [line] := by
  have hsplit : line.splitOn sep = [line] := List.splitOn_eq_singleton hsep
  unfold linesOf
  rw [hsplit]
  cases line <;> rfl

/-- **The lines that were written are read**, and what stands behind them as one more. -/
theorem linesOf_unlines {last : List α} (hlast : sep ∉ last) : ∀ {lines : List (List α)},
    (∀ line ∈ lines, sep ∉ line ∧ line ≠ []) →
      linesOf sep (unlines sep lines ++ last) = lines ++ if last = [] then [] else [last]
  | [], _ => linesOf_eq_self hlast
  | line :: lines, h => by
    obtain ⟨hsep, hne⟩ := h line List.mem_cons_self
    have hrest := linesOf_unlines hlast fun other hother => h other (List.mem_cons_of_mem line hother)
    show linesOf sep (line ++ [sep] ++ unlines sep lines ++ last) = line :: (lines ++ _)
    rw [List.append_assoc, List.append_assoc, List.singleton_append, linesOf_line hsep hne, hrest]

end Lines

/-! ## Pages -/

section Pages

/-- `items.slice(start, stop)`. -/
def slice (items : List α) (start stop : Nat) : List α :=
  (items.take stop).drop start

theorem slice_add (items : List α) (start count : Nat) :
    slice items start (start + count) = (items.drop start).take count := by
  unfold slice
  rw [List.drop_take, Nat.add_sub_cancel_left]

theorem length_slice_add (items : List α) (start count : Nat) :
    (slice items start (start + count)).length = min count (items.length - start) := by
  rw [slice_add, List.length_take, List.length_drop]

theorem map_slice {β : Type*} (f : α → β) (items : List α) (start stop : Nat) :
    (slice items start stop).map f = slice (items.map f) start stop := by
  unfold slice
  rw [List.map_drop, List.map_take]

/-- **A page joined to what stands before it**: no item is lost and none comes twice. -/
theorem take_append_slice (items : List α) (start count : Nat) :
    items.take start ++ slice items start (start + count) = items.take (start + count) := by
  rw [slice_add, ← List.take_add]

/-- The same for a page of the first items. -/
theorem take_append_slice_of_prefix {part items : List α} (h : part <+: items) (start count : Nat) :
    items.take start ++ slice part start (start + count) =
      items.take (start + (slice part start (start + count)).length) := by
  rcases Nat.le_total part.length start with hpast | hinside
  · have hnone : slice part start (start + count) = [] := by
      rw [slice_add, List.drop_eq_nil_of_le hpast, List.take_nil]
    rw [hnone, List.append_nil, List.length_nil, Nat.add_zero]
  · rw [length_slice_add]
    obtain ⟨rest, rfl⟩ := h
    rw [List.take_append_of_le_length hinside, take_append_slice,
      List.take_append_of_le_length (by omega)]
    rcases Nat.le_total count (part.length - start) with hle | hle
    · rw [Nat.min_eq_left hle]
    · rw [Nat.min_eq_right hle, List.take_of_length_le (by omega),
        List.take_of_length_le (by omega)]

end Pages

end EphemeralAgent.Lib
