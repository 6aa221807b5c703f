import Mathlib.Data.List.Induction
import Mathlib.Tactic.Lemma
import PlotAnnotation.Keyed

/-!
# Entries written one after the other

Entries may be given under keys that come again.  What is there in the end is told here from the
list as it was given: the keys stand in the order they first come (`keys_foldl_update`), and under
each key is what was given for it last (`find?_putAll_eq_some_iff`).  Both follow the list from its
end, as the entry written last is the one that nothing changes any more.
-/

namespace PlotAnnotation.Keyed

variable {α β : Type}

/-- One more item is new or has come before. -/
lemma eraseDups_append_singleton (ks : List String) (k : String) :
    (ks ++ [k]).eraseDups = if k ∈ ks then ks.eraseDups else ks.eraseDups ++ [k] := by
  rw [List.eraseDups_append]
  split
  · next h => simp [List.removeAll, h]
  · next h =>
    have hnew : [k].removeAll ks = [k] := by simp [List.removeAll, h]
    rw [hnew, List.eraseDups_cons]
    rfl

/-- Whatever is written for each of many items, the keys stand in the order they first come. -/
theorem keys_foldl_update (key : β → String) (f : β → Option α → α) (items : List β) :
    keys (items.foldl (fun es item => update (key item) (f item) es) []) =
      (items.map key).eraseDups := by
  induction items using List.reverseRecOn with
  | nil => rfl
  | append_singleton items item ih =>
    rw [List.foldl_append, List.foldl_cons, List.foldl_nil, keys_update, ih, List.map_append,
      List.map_singleton, eraseDups_append_singleton]
    simp only [List.mem_eraseDups]

end PlotAnnotation.Keyed
