import PlotAnnotation.Proofs.Decimal.Label
import PlotAnnotation.Proofs.Text.Markup
import PlotAnnotation.Tooltip.Content

/-!
# Tooltips taken apart

The markup of a content has two tags, and they are its own: no label can add one.  Without them and
with its entities read it is the plain text (`unescape_inner`).

The text of a number has neither a separator nor anything that markup would escape.  So the last
separator is the one that was put between the label and the number, and both come back from the
plain text and from the markup, whatever the label contains.
-/

namespace PlotAnnotation

open Text Text.Markup

/-! ### Parts of a text -/

namespace Text

/-- The text `s` has `part` once, between `before` and `after`. -/
def HasOnce (part s before after : String) : Prop :=
  ∀ b a, s = b ++ part ++ a ↔ b = before ∧ a = after

/-- The text `s` is split at the last `separator` in it into `before` and `after`. -/
structure SplitsAtLast (separator s before after : String) : Prop where
  eq : s = before ++ separator ++ after
  last : ∀ b a, s = b ++ separator ++ a → b.length ≤ before.length

/-- There is only one last separator. -/
lemma SplitsAtLast.unique {separator s b a b' a' : String} (h : SplitsAtLast separator s b a)
    (h' : SplitsAtLast separator s b' a') : b = b' ∧ a = a' := by
  have hlength : b.toList.length = b'.toList.length := by
    rw [String.length_toList, String.length_toList]
    exact le_antisymm (h'.last _ _ h.eq) (h.last _ _ h'.eq)
  have heq := congrArg String.toList (h.eq.symm.trans h'.eq)
  simp only [String.append_assoc, String.toList_append] at heq
  obtain ⟨hb, ha⟩ := List.append_inj heq hlength
  rw [List.append_cancel_left_eq] at ha
  exact ⟨String.toList_inj.1 hb, String.toList_inj.1 ha⟩

/-- Characters cut at one of the two places of a character. -/
lemma append_cons_eq_iff {α : Type} {x : α} {p q r b a : List α} (hp : x ∉ p) (hq : x ∉ q)
    (hr : x ∉ r) : p ++ x :: (q ++ x :: r) = b ++ x :: a ↔
      b = p ∧ a = q ++ x :: r ∨ b = p ++ x :: q ∧ a = r := by
  constructor
  · intro h
    rcases List.append_eq_append_iff.1 h with ⟨m, hb, hm⟩ | ⟨m, hbefore, hm⟩
    · cases m with
      | nil => exact .inl ⟨by simpa using hb, (List.cons.inj hm).2.symm⟩
      | cons d m =>
        rw [List.cons_append, List.cons.injEq] at hm
        obtain ⟨rfl, hm⟩ := hm
        obtain ⟨rfl, -, rfl⟩ := (List.append_cons_inj_of_notMem hq hr).1 hm
        exact .inr ⟨hb, rfl⟩
    · cases m with
      | nil => exact .inl ⟨by simpa using hbefore.symm, (List.cons.inj hm).2⟩
      | cons d m =>
        obtain ⟨rfl, -⟩ := List.cons.inj hm
        exact absurd (by simp [hbefore]) hp
  · rintro (⟨rfl, rfl⟩ | ⟨rfl, rfl⟩)
    · rfl
    · rw [List.append_assoc, List.cons_append]

/-- A separator is the last one if its first character does not come again. -/
lemma splitsAtLast_append {separator before after : String} {c : Char} {cs : List Char}
    (hseparator : separator.toList = c :: cs) (hcs : c ∉ cs) (hafter : c ∉ after.toList) :
    SplitsAtLast separator (before ++ separator ++ after) before after := by
  refine ⟨rfl, fun b a heq => ?_⟩
  rw [← String.length_toList, ← String.length_toList]
  have hlist := congrArg String.toList heq
  simp only [String.toList_append, hseparator, List.append_assoc, List.cons_append] at hlist
  rcases List.append_eq_append_iff.1 hlist with ⟨m, hb, hm⟩ | ⟨m, hbefore, -⟩
  · cases m with
    | nil => exact (congrArg List.length hb).trans_le (by simp)
    | cons d m =>
      -- the first character would come again
      have hmem : c ∈ cs ++ after.toList := by
        rw [(List.cons.inj hm).2]
        simp
      rcases List.mem_append.1 hmem with hmem | hmem
      · contradiction
      · contradiction
  · rw [hbefore, List.length_append]
    exact Nat.le_add_right _ _

/-- An opening and a closing tag around a text without tags are the only ones. -/
lemma hasOnce_tags {inner after : String} (hinner : '<' ∉ inner.toList)
    (hafter : '<' ∉ after.toList) :
    HasOnce "<strong>" ("<strong>" ++ inner ++ "</strong>" ++ after) ""
        (inner ++ "</strong>" ++ after) ∧
      HasOnce "</strong>" ("<strong>" ++ inner ++ "</strong>" ++ after) ("<strong>" ++ inner)
        after := by
  have hcut (b a : List Char) :
      ("<strong>" ++ inner ++ "</strong>" ++ after).toList = b ++ '<' :: a ↔
        b = [] ∧ a = "strong>".toList ++ (inner ++ "</strong>" ++ after).toList ∨
        b = ("<strong>" ++ inner).toList ∧ a = "/strong>".toList ++ after.toList := by
    have h := append_cons_eq_iff (p := []) (q := "strong>".toList ++ inner.toList)
      (r := "/strong>".toList ++ after.toList) (b := b) (a := a) (List.not_mem_nil (a := '<'))
      (by simp [hinner]) (by simp [hafter])
    simpa [List.append_assoc] using h
  have hhead (cs ds : List Char) : "strong>".toList ++ cs ≠ "/strong>".toList ++ ds := by
    simp
  constructor
  · intro b a
    have hlist : (b ++ "<strong>" ++ a).toList =
        b.toList ++ '<' :: ("strong>".toList ++ a.toList) := by
      simp
    rw [← String.toList_inj, hlist, hcut, List.append_cancel_left_eq, String.toList_inj,
      String.toList_eq_nil_iff]
    exact or_iff_left fun h => hhead _ _ h.2
  · intro b a
    have hlist : (b ++ "</strong>" ++ a).toList =
        b.toList ++ '<' :: ("/strong>".toList ++ a.toList) := by
      simp
    rw [← String.toList_inj, hlist, hcut, List.append_cancel_left_eq, String.toList_inj,
      String.toList_inj]
    exact or_iff_right fun h => hhead _ _ h.2.symm

end Text

/-- Nothing in the text of a number has to be escaped, and there is no separator in it. -/
lemma plain_of_mem_numberLabel {x : Float} {c : Char} (h : c ∈ (numberLabel x).toList) :
    c ∉ special ∧ c ≠ ':' ∧ c ≠ ' ' := by
  have htable : ((':' :: ' ' :: special).all fun c =>
      !(c.isAlpha || Json.Numeral.isNumeric c)) = true := by
    decide
  have hnot : c ∉ ':' :: ' ' :: special := by
    intro hmem
    have hfalse := List.all_eq_true.1 htable c hmem
    rw [isNumeric_of_mem_numberLabel h] at hfalse
    contradiction
  simp only [List.mem_cons, not_or] at hnot
  exact ⟨hnot.2.2, hnot.1, hnot.2.1⟩

namespace TooltipContent

variable (c : TooltipContent)

/-- The markup has its own two tags and no others. -/
lemma hasOnce_html :
    HasOnce "<strong>" c.html ""
        (escape c.label ++ ":" ++ "</strong>" ++ (" " ++ numberLabel c.value)) ∧
      HasOnce "</strong>" c.html ("<strong>" ++ (escape c.label ++ ":"))
        (" " ++ numberLabel c.value) := by
  have htags : c.html =
      "<strong>" ++ (escape c.label ++ ":") ++ "</strong>" ++ (" " ++ numberLabel c.value) := by
    have hseparator : ":</strong> " = ":" ++ "</strong>" ++ " " := rfl
    rw [html, hseparator]
    simp only [String.append_assoc]
  rw [htags]
  refine hasOnce_tags (fun hmem => ?_) fun hmem => ?_
  · have hlabel : '<' ∈ (escape c.label).toList := by simpa using hmem
    exact absurd (eq_amp_of_mem_escape hlabel (by decide)) (by decide)
  · have hnumber : '<' ∈ (numberLabel c.value).toList := by simpa using hmem
    exact (plain_of_mem_numberLabel hnumber).1 (by decide)

/-- Without its tags the markup is the plain text, escaped. -/
lemma unescape_without_tags :
    unescape (escape c.label ++ ":" ++ (" " ++ numberLabel c.value)) = c.text := by
  have hrest : '&' ∉ (":" ++ (" " ++ numberLabel c.value)).toList := by
    intro hmem
    have hnumber : '&' ∈ (numberLabel c.value).toList := by simpa using hmem
    exact (plain_of_mem_numberLabel hnumber).1 (by decide)
  have htext : c.text = c.label ++ (":" ++ (" " ++ numberLabel c.value)) := by
    have hseparator : ": " = ":" ++ " " := rfl
    rw [text, hseparator]
    simp only [String.append_assoc]
  rw [htext, String.append_assoc, unescape, String.toList_append, toList_escape,
    unescapeChars_flatMap_append, unescapeChars_of_notMem hrest, ← String.toList_append,
    String.ofList_toList]

/-- The last separator of the plain text stands before the number. -/
lemma splitsAtLast_text : SplitsAtLast ": " c.text c.label (numberLabel c.value) :=
  splitsAtLast_append rfl (by decide) fun hmem => (plain_of_mem_numberLabel hmem).2.1 rfl

/-- The markup is cut at its last separator into the label and the number. -/
lemma splitsAtLast_html :
    SplitsAtLast ":</strong> " c.html ("<strong>" ++ escape c.label) (numberLabel c.value) :=
  splitsAtLast_append rfl (by decide) fun hmem => (plain_of_mem_numberLabel hmem).2.1 rfl

variable {c} {c' : TooltipContent}

/-- Contents with the same plain text have the same label and the same number in it. -/
lemma text_eq_iff : c.text = c'.text ↔
    c.label = c'.label ∧ numberLabel c.value = numberLabel c'.value := by
  constructor
  · intro h
    exact c.splitsAtLast_text.unique (h ▸ c'.splitsAtLast_text)
  · rintro ⟨hlabel, hnumber⟩
    rw [text, text, hlabel, hnumber]

/-- The markup tells both the label and the number. -/
lemma html_eq_iff : c.html = c'.html ↔
    c.label = c'.label ∧ numberLabel c.value = numberLabel c'.value := by
  constructor
  · intro h
    obtain ⟨hlabel, hnumber⟩ := c.splitsAtLast_html.unique (h ▸ c'.splitsAtLast_html)
    refine ⟨?_, hnumber⟩
    rw [← unescape_escape c.label, ← unescape_escape c'.label, (String.append_right_inj _).1 hlabel]
  · rintro ⟨hlabel, hnumber⟩
    rw [html, html, hlabel, hnumber]

/-- **Labels stay labels.**  The markup of a content has the two tags it was given and no others,
and its other text is the plain text with the label escaped.  The label and the number are those
parts of the plain text that its last separator divides, and of the markup likewise; so contents
that look the same have the same label and the same number. -/
theorem html_and_text_recoverable (c : TooltipContent) :
    c.html = "<strong>" ++ escape c.label ++ ":</strong> " ++ numberLabel c.value ∧
    (∀ d ∈ (escape c.label).toList, d ≠ '<' ∧ d ≠ '>' ∧ d ≠ '"' ∧ d ≠ '\x27') ∧
    (∀ cs, '&' :: cs <:+ (escape c.label).toList → ∃ e ∈ entities, e.toList <+: '&' :: cs) ∧
    (∃ inner after, HasOnce "<strong>" c.html "" (inner ++ "</strong>" ++ after) ∧
      HasOnce "</strong>" c.html ("<strong>" ++ inner) after ∧
      unescape (inner ++ after) = c.text) ∧
    (∀ d ∈ (numberLabel c.value).toList, d ∉ special ∧ d ≠ ':' ∧ d ≠ ' ') ∧
    (∀ b a, SplitsAtLast ": " c.text b a ↔ b = c.label ∧ a = numberLabel c.value) ∧
    (∀ b a, SplitsAtLast ":</strong> " c.html b a ↔
      b = "<strong>" ++ escape c.label ∧ a = numberLabel c.value) ∧
    unescape (escape c.label) = c.label ∧
    ∀ c' : TooltipContent,
      (c.text = c'.text ↔ c.label = c'.label ∧ numberLabel c.value = numberLabel c'.value) ∧
      (c.html = c'.html ↔ c.label = c'.label ∧ numberLabel c.value = numberLabel c'.value) := by
  have hspecial (d : Char) (hd : d ∈ (escape c.label).toList) (hmem : d ∈ special)
      (hne : d ≠ '&') : False := hne (eq_amp_of_mem_escape hd hmem)
  refine ⟨rfl, fun d hd => ?_, fun cs => exists_entity_of_suffix, ?_,
    fun d => plain_of_mem_numberLabel, fun b a => ?_, fun b a => ?_, unescape_escape c.label,
    fun c' => ⟨text_eq_iff, html_eq_iff⟩⟩
  · refine ⟨?_, ?_, ?_, ?_⟩ <;> rintro rfl <;> exact hspecial _ hd (by decide) (by decide)
  · exact ⟨_, _, c.hasOnce_html.1, c.hasOnce_html.2, c.unescape_without_tags⟩
  · constructor
    · exact fun h => h.unique c.splitsAtLast_text
    · rintro ⟨rfl, rfl⟩
      exact c.splitsAtLast_text
  · constructor
    · exact fun h => h.unique c.splitsAtLast_html
    · rintro ⟨rfl, rfl⟩
      exact c.splitsAtLast_html

end TooltipContent

end PlotAnnotation
