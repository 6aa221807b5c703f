import Mathlib.Tactic.Lemma
import PlotAnnotation.Fault

/-!
# Requirements in order

What is checked is refused for the first thing that is wrong with it.  Here this is said without the
checks.  A `Requirement` is a condition with the fault of what does not meet it, and the first fault
of a list of requirements is that of the first one that is not met (`FirstFault`).  A check decides
a list of requirements if it succeeds where all are met and otherwise gives the first fault
(`Decides`).

Checks are put together as lists are: a requirement in front of others (`Decides.ite`), requirements
after others (`Decides.bind`), those of each item in turn (`decides_forM`), and one for each item
(`decides_find?`).
-/

namespace PlotAnnotation

/-- A condition, and the fault of what does not meet it. -/
structure Requirement where
  fault : Fault
  Met : Prop

namespace Requirement

variable {α β : Type} {r : Requirement} {rs qs : List Requirement} {fault : Fault}

/-- The fault of the first requirement that is not met. -/
def FirstFault (rs : List Requirement) (fault : Fault) : Prop :=
  ∃ before r after, rs = before ++ r :: after ∧ (∀ q ∈ before, q.Met) ∧ ¬r.Met ∧ r.fault = fault

/-- A check succeeds where all requirements are met, and otherwise gives the first fault. -/
def Decides (rs : List Requirement) : Except Fault α → Prop
  | .ok _ => ∀ r ∈ rs, r.Met
  | .error fault => FirstFault rs fault

/-! ### The first fault -/

lemma not_firstFault_nil : ¬FirstFault [] fault := by
  rintro ⟨before, r, after, heq, -⟩
  exact absurd heq.symm (by simp)

/-- The first requirement is not met and gives the fault, or a later one does. -/
lemma firstFault_cons :
    FirstFault (r :: rs) fault ↔ ¬r.Met ∧ r.fault = fault ∨ r.Met ∧ FirstFault rs fault := by
  constructor
  · rintro ⟨before, q, after, heq, hbefore, hq, hfault⟩
    rcases List.cons_eq_append_iff.1 heq with ⟨rfl, hcons⟩ | ⟨before', rfl, rfl⟩
    · obtain ⟨rfl, rfl⟩ := List.cons.inj hcons
      exact .inl ⟨hq, hfault⟩
    · obtain ⟨hr, hrest⟩ := List.forall_mem_cons.1 hbefore
      exact .inr ⟨hr, before', q, after, rfl, hrest, hq, hfault⟩
  · rintro (⟨hr, hfault⟩ | ⟨hr, before, q, after, rfl, hbefore, hq, hfault⟩)
    · exact ⟨[], r, rs, rfl, List.forall_mem_nil _, hr, hfault⟩
    · exact ⟨r :: before, q, after, rfl, List.forall_mem_cons.2 ⟨hr, hbefore⟩, hq, hfault⟩

/-- The first fault is that of the first part, or all of this is met and it is that of the other. -/
lemma firstFault_append :
    FirstFault (rs ++ qs) fault ↔
      FirstFault rs fault ∨ (∀ r ∈ rs, r.Met) ∧ FirstFault qs fault := by
  induction rs with
  | nil => simp [not_firstFault_nil]
  | cons r rs ih =>
    rw [List.cons_append, firstFault_cons, firstFault_cons, ih, List.forall_mem_cons, and_or_left,
      or_assoc, and_assoc]

/-- Of requirements that are made for items, the first fault is that of the first item whose
requirement is not met. -/
lemma firstFault_map {items : List α} {req : α → Requirement} :
    FirstFault (items.map req) fault ↔
      ∃ before a after, items = before ++ a :: after ∧ (∀ b ∈ before, (req b).Met) ∧
        ¬(req a).Met ∧ (req a).fault = fault := by
  constructor
  · rintro ⟨before, r, after, heq, hbefore, hr, hfault⟩
    obtain ⟨before, rest, rfl, rfl, hrest⟩ := List.map_eq_append_iff.1 heq
    obtain ⟨a, after, rfl, rfl, -⟩ := List.map_eq_cons_iff.1 hrest
    exact ⟨before, a, after, rfl, List.forall_mem_map.1 hbefore, hr, hfault⟩
  · rintro ⟨before, a, after, rfl, hbefore, ha, hfault⟩
    exact ⟨before.map req, req a, after.map req, List.map_append, List.forall_mem_map.2 hbefore,
      ha, hfault⟩

/-- Where there is a first fault, not all requirements are met. -/
lemma FirstFault.not_forall (h : FirstFault rs fault) : ¬∀ r ∈ rs, r.Met := by
  obtain ⟨before, r, after, rfl, -, hr, -⟩ := h
  exact fun hall => hr (hall r (by simp))

/-- There is only one first fault. -/
lemma FirstFault.unique {fault' : Fault} (h : FirstFault rs fault) (h' : FirstFault rs fault') :
    fault = fault' := by
  induction rs with
  | nil => exact absurd h not_firstFault_nil
  | cons r rs ih =>
    rw [firstFault_cons] at h h'
    rcases h with ⟨hr, rfl⟩ | ⟨hr, h⟩
    · rcases h' with ⟨-, rfl⟩ | ⟨hr', -⟩
      · rfl
      · exact absurd hr' hr
    · rcases h' with ⟨hr', -⟩ | ⟨-, h'⟩
      · exact absurd hr hr'
      · exact ih h h'

/-! ### Checks -/

/-- A check succeeds exactly if all requirements are met. -/
lemma Decides.exists_ok_iff {x : Except Fault α} (h : Decides rs x) :
    (∃ a, x = .ok a) ↔ ∀ r ∈ rs, r.Met := by
  cases x with
  | ok a => exact iff_of_true ⟨a, rfl⟩ h
  | error fault => exact iff_of_false (by simp) h.not_forall

/-- A check fails exactly if some requirement is not met. -/
lemma Decides.exists_error_iff {x : Except Fault α} (h : Decides rs x) :
    (∃ fault, x = .error fault) ↔ ¬∀ r ∈ rs, r.Met := by
  cases x with
  | ok a => exact iff_of_false (by simp) (not_not_intro h)
  | error fault => exact iff_of_true ⟨fault, rfl⟩ h.not_forall

/-- A check fails exactly with the first fault. -/
lemma Decides.eq_error_iff {x : Except Fault α} (h : Decides rs x) :
    x = .error fault ↔ FirstFault rs fault := by
  cases x with
  | ok a => exact iff_of_false (by simp) fun hfault => hfault.not_forall h
  | error fault' =>
    rw [Except.error.injEq]
    exact ⟨fun heq => heq ▸ h, h.unique⟩

/-- Nothing is required of what is there already. -/
lemma decides_ok (a : α) : Decides [] (.ok a : Except Fault α) :=
  List.forall_mem_nil _

/-- A requirement that comes first decides first. -/
lemma Decides.ite {p : Prop} [Decidable p] {x : Except Fault α} (hr : p ↔ ¬r.Met)
    (hx : Decides rs x) : Decides (r :: rs) (if p then .error r.fault else x) := by
  by_cases hp : p
  · rw [if_pos hp]
    exact firstFault_cons.2 (.inl ⟨hr.1 hp, rfl⟩)
  · have hmet : r.Met := Classical.not_not.1 fun h => hp (hr.2 h)
    rw [if_neg hp]
    cases x with
    | ok a => exact List.forall_mem_cons.2 ⟨hmet, hx⟩
    | error fault => exact firstFault_cons.2 (.inr ⟨hmet, hx⟩)

/-- What becomes of a result has no part in the check. -/
lemma Decides.map {x : Except Fault α} (h : Decides rs x) (f : α → β) : Decides rs (x.map f) := by
  cases x with
  | ok a => exact h
  | error fault => exact h

/-- Requirements that are met anyway, before and after the others, decide nothing. -/
lemma Decides.of_met {before after : List Requirement} {x : Except Fault α}
    (h : Decides (before ++ (rs ++ after)) x) (hbefore : ∀ r ∈ before, r.Met)
    (hafter : ∀ r ∈ after, r.Met) : Decides rs x := by
  cases x with
  | ok a => exact (List.forall_mem_append.1 (List.forall_mem_append.1 h).2).1
  | error fault =>
    rcases firstFault_append.1 h with hfault | ⟨-, hfault⟩
    · exact absurd hbefore hfault.not_forall
    · rcases firstFault_append.1 hfault with hfault | ⟨-, hfault⟩
      · exact hfault
      · exact absurd hafter hfault.not_forall

/-- One check after the other decides the requirements of both, in this order. -/
lemma Decides.bind {x : Except Fault α} {f : α → Except Fault β} (hx : Decides rs x)
    (hf : ∀ a, x = .ok a → Decides qs (f a)) : Decides (rs ++ qs) (x >>= f) := by
  cases x with
  | error fault => exact firstFault_append.2 (.inl hx)
  | ok a =>
    have hqs := hf a rfl
    change Decides (rs ++ qs) (f a)
    cases hfa : f a with
    | ok b =>
      rw [hfa] at hqs
      exact List.forall_mem_append.2 ⟨hx, hqs⟩
    | error fault =>
      rw [hfa] at hqs
      exact firstFault_append.2 (.inr ⟨hx, hqs⟩)

/-- A check of each item in turn decides the requirements of all of them. -/
lemma decides_forM {items : List α} {f : α → Except Fault PUnit} {reqs : α → List Requirement}
    (h : ∀ a ∈ items, Decides (reqs a) (f a)) : Decides (items.flatMap reqs) (items.forM f) := by
  induction items with
  | nil => exact decides_ok _
  | cons a items ih =>
    obtain ⟨ha, hitems⟩ := List.forall_mem_cons.1 h
    exact ha.bind fun _ _ => ih hitems

/-- A search for an item that is not as required decides whether all are. -/
lemma decides_find? {items : List α} {bad : α → Bool} {req : α → Requirement} {x : Except Fault β}
    (hbad : ∀ a ∈ items, bad a = true ↔ ¬(req a).Met)
    (hsome : ∀ a, items.find? bad = some a → x = .error (req a).fault)
    (hnone : items.find? bad = none → ∃ b, x = .ok b) : Decides (items.map req) x := by
  cases hfind : items.find? bad with
  | none =>
    obtain ⟨b, rfl⟩ := hnone hfind
    rw [List.find?_eq_none] at hfind
    refine List.forall_mem_map.2 fun a ha => ?_
    exact Classical.not_not.1 fun hnot => hfind a ha ((hbad a ha).2 hnot)
  | some a =>
    rw [hsome a hfind]
    obtain ⟨ha, before, after, rfl, hbefore⟩ := List.find?_eq_some_iff_append.1 hfind
    refine firstFault_map.2 ⟨before, a, after, rfl, ?_, ?_, rfl⟩
    · refine fun b hb => Classical.not_not.1 fun hnot => ?_
      have hfalse := hbefore b hb
      rw [(hbad b (by simp [hb])).2 hnot] at hfalse
      contradiction
    · exact (hbad a (by simp)).1 ha

end Requirement

end PlotAnnotation
