import Mathlib.Tactic.Lemma
import PlotAnnotation.Text.Markup

/-!
# Escaped text and its reading

An escaped text has no character that could open or close a tag or an attribute
(`eq_amp_of_mem_escape`), and its ampersands all start entities (`exists_entity_of_suffix`).

`unescape` replaces the entities of a text in one pass.  It gives a text back from its escaped form,
also where the text itself contains entities: an ampersand that is escaped starts no other entity.
-/

namespace PlotAnnotation.Text.Markup

/-! ### Entities -/

/-- The entities of the five characters that mean something to markup. -/
def entities : List String :=
  ["&amp;", "&lt;", "&gt;", "&quot;", "&#39;"]

/-- The characters that mean something to markup. -/
def special : List Char :=
  ['&', '<', '>', '"', '\x27']

/-- Only characters that mean something to markup are written as entities. -/
lemma escapeChar_of_notMem {c : Char} (h : c ∉ special) : escapeChar c = [c] := by
  unfold escapeChar
  split <;> first | rfl | exact absurd (by decide) h

/-- Reads the entities in characters, each of them once. -/
def unescapeChars : List Char → List Char
  | '&' :: 'a' :: 'm' :: 'p' :: ';' :: cs => '&' :: unescapeChars cs
  | '&' :: 'l' :: 't' :: ';' :: cs => '<' :: unescapeChars cs
  | '&' :: 'g' :: 't' :: ';' :: cs => '>' :: unescapeChars cs
  | '&' :: 'q' :: 'u' :: 'o' :: 't' :: ';' :: cs => '"' :: unescapeChars cs
  | '&' :: '#' :: '3' :: '9' :: ';' :: cs => '\x27' :: unescapeChars cs
  | c :: cs => c :: unescapeChars cs
  | [] => []

/-- A text with its entities replaced by the characters that they stand for. -/
def unescape (s : String) : String :=
  String.ofList (unescapeChars s.toList)

/-- A character that begins no entity stands for itself. -/
lemma unescapeChars_cons {c : Char} (h : c ≠ '&') (cs : List Char) :
    unescapeChars (c :: cs) = c :: unescapeChars cs := by
  rw [unescapeChars.eq_def]
  split <;> simp_all

/-- Without ampersands there is nothing to read. -/
lemma unescapeChars_of_notMem {cs : List Char} (h : '&' ∉ cs) : unescapeChars cs = cs := by
  induction cs with
  | nil => rfl
  | cons c cs ih =>
    rw [List.mem_cons, not_or] at h
    rw [unescapeChars_cons (Ne.symm h.1), ih h.2]

/-! ### Escaped text -/

/-- An escaped character is read back, whatever follows it. -/
lemma unescapeChars_escapeChar (c : Char) (cs : List Char) :
    unescapeChars (escapeChar c ++ cs) = c :: unescapeChars cs := by
  unfold escapeChar
  split <;> first | rfl | exact unescapeChars_cons (by assumption) cs

/-- What is escaped is read back, whatever follows it. -/
lemma unescapeChars_flatMap_append (cs rest : List Char) :
    unescapeChars (cs.flatMap escapeChar ++ rest) = cs ++ unescapeChars rest := by
  induction cs with
  | nil => rfl
  | cons c cs ih => rw [List.flatMap_cons, List.append_assoc, unescapeChars_escapeChar, ih,
      List.cons_append]

/-- A text is read back from its escaped form. -/
theorem unescape_escape (s : String) : unescape (escape s) = s := by
  have h := unescapeChars_flatMap_append s.toList []
  rw [List.append_nil, unescapeChars_of_notMem List.not_mem_nil, List.append_nil] at h
  rw [unescape, toList_escape, h, String.ofList_toList]

/-- The entity of a character that means something to markup has an ampersand at its start and no
other such character. -/
lemma exists_entity_eq_escapeChar {c : Char} (h : c ∈ special) :
    ∃ e ∈ entities, ∃ cs, e.toList = '&' :: cs ∧ (∀ d ∈ cs, d ∉ special) ∧
      escapeChar c = '&' :: cs := by
  have htable : (special.all fun c => entities.any fun e =>
      e.toList == '&' :: e.toList.tail && e.toList.tail.all (fun d => !special.contains d) &&
        escapeChar c == '&' :: e.toList.tail) = true := by
    decide
  obtain ⟨e, he, hentity⟩ := List.any_eq_true.1 (List.all_eq_true.1 htable c h)
  refine ⟨e, he, e.toList.tail, ?_⟩
  simpa [and_assoc] using hentity

/-- An entity is read once: what it stands for starts no other. -/
example : unescape "&amp;lt;" = "&lt;" := by
  decide

/-- Of the characters that mean something to markup, an escaped text has the ampersand only. -/
theorem eq_amp_of_mem_escape {s : String} {c : Char} (hc : c ∈ (escape s).toList)
    (h : c ∈ special) : c = '&' := by
  rw [toList_escape, List.mem_flatMap] at hc
  obtain ⟨d, -, hc⟩ := hc
  by_cases hd : d ∈ special
  · obtain ⟨e, -, cs, -, hcs, heq⟩ := exists_entity_eq_escapeChar hd
    rw [heq, List.mem_cons] at hc
    exact hc.resolve_right fun hmem => hcs c hmem h
  · rw [escapeChar_of_notMem hd, List.mem_singleton] at hc
    rw [hc] at h
    contradiction

/-- What starts with a character does not start before its first place. -/
lemma suffix_of_suffix_append {c : Char} {cs front rest : List Char} (hfront : c ∉ front)
    (h : c :: cs <:+ front ++ rest) : c :: cs <:+ rest := by
  induction front with
  | nil => exact h
  | cons d front ih =>
    rw [List.mem_cons, not_or] at hfront
    rw [List.cons_append, List.suffix_cons_iff] at h
    exact h.elim (fun heq => absurd (List.cons.inj heq).1 hfront.1) (ih hfront.2)

/-- An ampersand in an escaped text starts an entity. -/
theorem exists_entity_of_suffix {s : String} {cs : List Char}
    (h : '&' :: cs <:+ (escape s).toList) : ∃ e ∈ entities, e.toList <+: '&' :: cs := by
  rw [toList_escape] at h
  generalize s.toList = ds at h
  induction ds with
  | nil => simp at h
  | cons d ds ih =>
    rw [List.flatMap_cons] at h
    by_cases hd : d ∈ special
    · obtain ⟨e, he, tail, hentity, htail, hd⟩ := exists_entity_eq_escapeChar hd
      rw [hd, List.cons_append, List.suffix_cons_iff] at h
      rcases h with h | h
      · refine ⟨e, he, ds.flatMap escapeChar, ?_⟩
        rw [hentity, h, List.cons_append]
      · exact ih (suffix_of_suffix_append (fun hmem => htail _ hmem (by decide)) h)
    · rw [escapeChar_of_notMem hd] at h
      refine ih (suffix_of_suffix_append ?_ h)
      rw [List.mem_singleton]
      rintro rfl
      exact hd (by decide)

end PlotAnnotation.Text.Markup
