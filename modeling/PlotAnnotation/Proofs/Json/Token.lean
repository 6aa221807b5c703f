import PlotAnnotation.Proofs.Json.Spelling

/-!
# The tokens of a written value

`Value.tokens` lists the tokens of a value, and `Cutter.run_write` says that the text of the value
is cut into just these, in every layout that adds only blanks, whatever was cut before and whatever
comes after.  What comes after must not run on the last word of the value, which `EndsWord` says.

The three kinds of tokens are cut one by one first: single characters and the blanks between them,
runs of characters, and texts between quotes.  A text gives back each of its characters as one unit,
since a character is never half of another one.
-/

namespace PlotAnnotation.Json

namespace Value

mutual

/-- The tokens of a value. -/
def tokens : Value → List Token
  | null => [.null]
  | bool b => [.bool b]
  | number n => [.number (some n)]
  | string s => [.text (some s)]
  | array [] => [.openArray, .closeArray]
  | array (v :: vs) => .openArray :: (tokens v ++ itemTokens vs ++ [.closeArray])
  | object [] => [.openObject, .closeObject]
  | object ((key, v) :: es) =>
    .openObject :: .text (some key) :: .colon :: (tokens v ++ entryTokens es ++ [.closeObject])

/-- The tokens of the items after the first. -/
def itemTokens : List Value → List Token
  | [] => []
  | v :: vs => .comma :: (tokens v ++ itemTokens vs)

/-- The tokens of the entries after the first. -/
def entryTokens : List (String × Value) → List Token
  | [] => []
  | (key, v) :: es => .comma :: .text (some key) :: .colon :: (tokens v ++ entryTokens es)

end

end Value

/-- A layout that adds nothing but blanks to the tokens. -/
structure Layout.Blank (l : Layout) : Prop where
  line : ∀ depth, ∀ c ∈ l.line depth, Token.isGap c = true
  colon : ∃ gap, l.colon = ':' :: gap ∧ ∀ c ∈ gap, Token.isGap c = true

/-- Nothing is set between the tokens of one line. -/
lemma Layout.blank_compact : Layout.compact.Blank :=
  ⟨fun _ c hc => by simp [Layout.compact] at hc, [], rfl, by simp⟩

/-- Only gaps are set between the tokens of several lines. -/
lemma Layout.blank_indented : Layout.indented.Blank := by
  refine ⟨fun depth c hc => ?_, [' '], rfl, ?_⟩
  · rcases List.mem_cons.1 hc with rfl | hc
    · decide
    · rw [List.eq_of_mem_replicate hc]
      decide
  · intro c hc
    rw [List.mem_singleton.1 hc]
    decide

namespace Token

namespace Cutter

/-- The tokens of a text from a state of the machine on. -/
def run (s : Cutter) (cs : List Char) : Option (List Token) :=
  (cs.foldlM step s).bind finish

/-- A run takes one character after the other. -/
lemma run_cons (s : Cutter) (c : Char) (cs : List Char) :
    run s (c :: cs) = (step s c).bind fun s' => run s' cs := by
  simp only [run, List.foldlM_cons, Option.bind_eq_bind, Option.bind_assoc]

/-- A run goes on from where its steps have come to. -/
lemma run_append_of_foldlM {s s' : Cutter} {cs : List Char} (h : cs.foldlM step s = some s')
    (rest : List Char) : run s (cs ++ rest) = run s' rest := by
  simp only [run, List.foldlM_append, h, Option.bind_eq_bind, Option.bind_some]

/-! ### Characters and blanks -/

variable (acc : List Token) {rest : List Char}

/-- A mark is a token by itself. -/
lemma run_mark {c : Char} {t : Token} (h : ofMark? c = some t) (rest : List Char) :
    run ⟨.between, acc⟩ (c :: rest) = run ⟨.between, t :: acc⟩ rest := by
  have hgap : isGap c = false := by
    by_contra hgap
    simp only [isGap, Bool.or_eq_true, beq_iff_eq, Bool.not_eq_false] at hgap
    rcases hgap with ((rfl | rfl) | rfl) | rfl <;> simp [ofMark?] at h
  have hquote : c ≠ '"' := by
    rintro rfl
    simp [ofMark?] at h
  simp [run_cons, step, start, hgap, hquote, h]

/-- A gap gives no token. -/
lemma run_gap {gap : List Char} (h : ∀ c ∈ gap, isGap c = true) (rest : List Char) :
    run ⟨.between, acc⟩ (gap ++ rest) = run ⟨.between, acc⟩ rest := by
  induction gap with
  | nil => rfl
  | cons c gap ih =>
    have hc : step ⟨.between, acc⟩ c = some ⟨.between, acc⟩ := by
      simp [step, start, h c List.mem_cons_self]
    rw [List.cons_append, run_cons, hc]
    exact ih fun d hd => h d (List.mem_cons_of_mem _ hd)

/-! ### Runs of characters -/

/-- A text that does not run on a word before it. -/
def EndsWord (rest : List Char) : Prop :=
  ∀ c, rest.head? = some c → endsWord c = true

lemma endsWord_of_isGap {c : Char} (h : isGap c = true) : endsWord c = true := by
  simp [endsWord, h]

lemma endsWord_of_ofMark? {c : Char} {t : Token} (h : ofMark? c = some t) : endsWord c = true := by
  simp [endsWord, h]

/-- A word ends at a gap, or at what follows it. -/
lemma EndsWord.gap_append {gap : List Char} (h : ∀ c ∈ gap, isGap c = true)
    (hrest : EndsWord rest) : EndsWord (gap ++ rest) := by
  intro c hc
  cases gap with
  | nil => exact hrest c hc
  | cons d gap =>
    obtain rfl : d = c := by simpa using hc
    exact endsWord_of_isGap (h d List.mem_cons_self)

/-- A word ends at a mark. -/
lemma EndsWord.mark {c : Char} {t : Token} (h : ofMark? c = some t) (rest : List Char) :
    EndsWord (c :: rest) := by
  intro d hd
  obtain rfl : c = d := by simpa using hd
  exact endsWord_of_ofMark? h

/-- Where a word ends, the machine goes on as if the word had been cut before. -/
lemma run_word_end {before : List Char} {t : Token} (h : ofWord? before.reverse = some t)
    (hrest : EndsWord rest) :
    run ⟨.word before, acc⟩ rest = run ⟨.between, t :: acc⟩ rest := by
  cases rest with
  | nil => simp [run, finish, h]
  | cons c cs => simp [run_cons, step, hrest c rfl, h]

/-- The characters of a word are collected. -/
lemma foldlM_word {before word : List Char} (h : ∀ c ∈ word, endsWord c = false) :
    word.foldlM step ⟨.word before, acc⟩ = some ⟨.word (word.reverse ++ before), acc⟩ := by
  induction word generalizing before with
  | nil => rfl
  | cons c word ih =>
    have hc : step ⟨.word before, acc⟩ c = some ⟨.word (c :: before), acc⟩ := by
      simp [step, h c List.mem_cons_self]
    rw [List.foldlM_cons, hc, Option.bind_eq_bind, Option.bind_some,
      ih fun d hd => h d (List.mem_cons_of_mem _ hd)]
    simp

/-- A word is one token. -/
lemma run_word {word : List Char} {t : Token} (hne : word ≠ [])
    (h : ∀ c ∈ word, endsWord c = false) (ht : ofWord? word = some t) (hrest : EndsWord rest) :
    run ⟨.between, acc⟩ (word ++ rest) = run ⟨.between, t :: acc⟩ rest := by
  cases word with
  | nil => contradiction
  | cons c word =>
    have hc := h c List.mem_cons_self
    simp only [endsWord, Bool.or_eq_false_iff, beq_eq_false_iff_ne, Option.isSome_eq_false_iff,
      Option.isNone_iff_eq_none] at hc
    have hstart : step ⟨.between, acc⟩ c = some ⟨.word [c], acc⟩ := by
      simp [step, start, hc.1.1, hc.1.2, hc.2]
    rw [List.cons_append, run_cons, hstart, Option.bind_some,
      run_append_of_foldlM (foldlM_word acc fun d hd => h d (List.mem_cons_of_mem _ hd))]
    exact run_word_end acc (by simpa using ht) hrest

/-- The characters that end a word. -/
lemma mem_of_endsWord {c : Char} (h : endsWord c = true) :
    c ∈ [' ', '\n', '\t', '\r', '"', '[', ']', '{', '}', ',', ':'] := by
  unfold endsWord isGap ofMark? at h
  split at h <;> simp_all [or_assoc]

/-- The characters of numerals do not end a word. -/
lemma endsWord_of_isSpelling {c : Char} (h : Numeral.isSpelling c = true) :
    endsWord c = false := by
  by_contra hends
  have hnone : ∀ d ∈ [' ', '\n', '\t', '\r', '"', '[', ']', '{', '}', ',', ':'],
      Numeral.isSpelling d = false := by simp [Numeral.isSpelling, Numeral.isNumeric]
  have hc := hnone c (mem_of_endsWord (Bool.not_eq_false _ ▸ hends))
  rw [hc] at h
  contradiction

/-- A numeral is one token, however it is spelled. -/
lemma run_numeral {word : List Char} {n : Numeral} (h : Numeral.ofChars? word = some n)
    (hrest : EndsWord rest) :
    run ⟨.between, acc⟩ (word ++ rest) = run ⟨.between, .number n.value? :: acc⟩ rest := by
  have hspelling := Numeral.isSpelling_of_ofChars? h
  have hname : ∀ c ∈ word, c ≠ 'u' ∧ c ≠ 'a' := by
    intro c hc
    constructor <;> rintro rfl <;> exact absurd (hspelling _ hc) (by decide)
  have hword : ofWord? word = some (.number n.value?) := by
    have hnull : word ≠ ['n', 'u', 'l', 'l'] := fun h => (hname 'u' (by simp [h])).1 rfl
    have htrue : word ≠ ['t', 'r', 'u', 'e'] := fun h => (hname 'u' (by simp [h])).1 rfl
    have hfalse : word ≠ ['f', 'a', 'l', 's', 'e'] := fun h => (hname 'a' (by simp [h])).2 rfl
    rw [ofWord?, if_neg hnull, if_neg htrue, if_neg hfalse, h, Option.map_some]
  exact run_word acc (Numeral.ne_nil_of_ofChars? h)
    (fun c hc => endsWord_of_isSpelling (hspelling c hc)) hword hrest

/-- A number is one token. -/
lemma run_number (n : Number) (hrest : EndsWord rest) :
    run ⟨.between, acc⟩ (n.write ++ rest) = run ⟨.between, .number (some n) :: acc⟩ rest := by
  obtain ⟨m, hm, htext, hvalue⟩ := n.exists_numeral_write
  have hread : Numeral.ofChars? n.write = some m := by
    rw [← htext, Numeral.ofChars?_text hm]
  rw [run_numeral acc hread hrest, hvalue]

/-! ### Texts -/

/-- No character is half of another. -/
lemma not_half (c : Char) : isHigh c.toNat = false ∧ isLow c.toNat = false := by
  have hvalid : c.toNat < 0xD800 ∨ 0xDFFF < c.toNat ∧ c.toNat < 0x110000 := c.valid
  simp only [isHigh, isLow, Bool.and_eq_false_iff, decide_eq_false_iff_not]
  omega

/-- Characters are joined from their code points. -/
lemma joinUnits_toNat (cs : List Char) : joinUnits (cs.map Char.toNat) = some cs := by
  induction cs with
  | nil => rfl
  | cons c cs ih =>
    obtain ⟨hhigh, hlow⟩ := not_half c
    rw [List.map_cons, joinUnits.eq_def]
    simp [hhigh, hlow, ih]

/-- A hexadecimal digit is read back. -/
lemma hexValue?_digitChar {d : Nat} (h : d < 16) : hexValue? (Nat.digitChar d) = some d := by
  revert d
  decide

variable (before : List Nat)

/-- A control character is written as an escape by number. -/
lemma foldlM_unit {u : Nat} (h : u < 0x20) :
    ['\\', 'u', '0', '0', Nat.digitChar (u / 16), Nat.digitChar (u % 16)].foldlM step
      ⟨.text before, acc⟩ = some ⟨.text (u :: before), acc⟩ := by
  have hhigh : hexValue? (Nat.digitChar (u / 16)) = some (u / 16) :=
    hexValue?_digitChar (by omega)
  have hlow : hexValue? (Nat.digitChar (u % 16)) = some (u % 16) :=
    hexValue?_digitChar (by omega)
  have hzero : hexValue? '0' = some 0 := by decide
  have hu : u / 16 * 16 + u % 16 = u := by omega
  simp [step, hhigh, hlow, hzero, hu]

/-- Whatever a character is written as, it is gathered as one unit. -/
lemma foldlM_escapeChar (c : Char) :
    (escapeChar c).foldlM step ⟨.text before, acc⟩ = some ⟨.text (c.toNat :: before), acc⟩ := by
  unfold escapeChar
  split_ifs with hquote hbackslash hb ht hn hf hr hcontrol
  · subst hquote
    rfl
  · subst hbackslash
    rfl
  · subst hb
    rfl
  · subst ht
    rfl
  · subst hn
    rfl
  · subst hf
    rfl
  · subst hr
    rfl
  · exact foldlM_unit acc before hcontrol
  · simp [step, hquote, hbackslash, hcontrol]

/-- An escaped text is collected as the characters it was made from. -/
lemma foldlM_escape (cs : List Char) :
    (cs.flatMap escapeChar).foldlM step ⟨.text before, acc⟩ =
      some ⟨.text ((cs.map Char.toNat).reverse ++ before), acc⟩ := by
  induction cs generalizing before with
  | nil => rfl
  | cons c cs ih =>
    rw [List.flatMap_cons, List.foldlM_append, foldlM_escapeChar, Option.bind_eq_bind,
      Option.bind_some, ih]
    simp

/-- A text is one token, and none of its characters is lost. -/
lemma run_text (s : String) (rest : List Char) :
    run ⟨.between, acc⟩ (writeText s ++ rest) = run ⟨.between, .text (some s) :: acc⟩ rest := by
  have hopen : step ⟨.between, acc⟩ '"' = some ⟨.text [], acc⟩ := rfl
  have hclose : step ⟨.text (s.toList.map Char.toNat).reverse, acc⟩ '"' =
      some ⟨.between, .text (some s) :: acc⟩ := by
    simp [step, joinUnits_toNat]
  rw [writeText, List.cons_append, run_cons, hopen, Option.bind_some, List.append_assoc,
    run_append_of_foldlM (foldlM_escape acc [] s.toList), List.append_nil, List.singleton_append,
    run_cons, hclose, Option.bind_some]

/-! ### Values -/

/-- A key and the colon after it are two tokens. -/
lemma run_key {l : Layout} (hl : l.Blank) (key : String) (rest : List Char) :
    run ⟨.between, acc⟩ (writeText key ++ (l.colon ++ rest)) =
      run ⟨.between, .colon :: .text (some key) :: acc⟩ rest := by
  obtain ⟨gap, hcolon, hgap⟩ := hl.colon
  have hmark : ofMark? ':' = some .colon := rfl
  rw [run_text, hcolon, List.cons_append, run_mark _ hmark, run_gap _ hgap]

/-- What is written of further items ends a word. -/
lemma endsWord_writeItems {l : Layout} {depth : Nat} (vs : List Value) (hrest : EndsWord rest) :
    EndsWord (Value.writeItems l depth vs ++ rest) := by
  cases vs with
  | nil => exact hrest
  | cons v vs => exact EndsWord.mark (t := .comma) rfl _

/-- What is written of further entries ends a word. -/
lemma endsWord_writeEntries {l : Layout} {depth : Nat} (es : List (String × Value))
    (hrest : EndsWord rest) : EndsWord (Value.writeEntries l depth es ++ rest) := by
  cases es with
  | nil => exact hrest
  | cons e es => exact EndsWord.mark (t := .comma) rfl _

/-- A closing bracket on a line of its own ends the word before it. -/
lemma endsWord_close {l : Layout} (hl : l.Blank) (depth : Nat) {c : Char} {t : Token}
    (h : ofMark? c = some t) (rest : List Char) : EndsWord (l.line depth ++ (c :: rest)) :=
  EndsWord.gap_append (hl.line depth) (EndsWord.mark h rest)

mutual

/-- The text of a value is cut into the tokens of the value. -/
theorem run_write {l : Layout} (hl : l.Blank) (depth : Nat) (v : Value) (acc : List Token)
    {rest : List Char} (hrest : EndsWord rest) :
    run ⟨.between, acc⟩ (v.write l depth ++ rest) =
      run ⟨.between, v.tokens.reverse ++ acc⟩ rest :=
  match v with
  | .null => by
    rw [Value.write]
    exact run_word acc (by simp) (by simp [endsWord, isGap, ofMark?]) rfl hrest
  | .bool true => by
    rw [Value.write]
    exact run_word acc (by simp) (by simp [endsWord, isGap, ofMark?]) rfl hrest
  | .bool false => by
    rw [Value.write]
    exact run_word acc (by simp) (by simp [endsWord, isGap, ofMark?]) rfl hrest
  | .number n => run_number acc n hrest
  | .string s => run_text acc s rest
  | .array [] => by
    have hopen : ofMark? '[' = some .openArray := rfl
    have hclose : ofMark? ']' = some .closeArray := rfl
    simp only [Value.write, List.cons_append, List.nil_append, run_mark _ hopen,
      run_mark _ hclose]
    rfl
  | .object [] => by
    have hopen : ofMark? '{' = some .openObject := rfl
    have hclose : ofMark? '}' = some .closeObject := rfl
    simp only [Value.write, List.cons_append, List.nil_append, run_mark _ hopen,
      run_mark _ hclose]
    rfl
  | .array (v :: vs) => by
    have hopen : ofMark? '[' = some .openArray := rfl
    have hclose : ofMark? ']' = some .closeArray := rfl
    have hend := endsWord_close hl depth hclose rest
    simp only [Value.write, List.cons_append, List.append_assoc, List.nil_append]
    rw [run_mark _ hopen, run_gap _ (hl.line _),
      run_write hl _ v _ (endsWord_writeItems vs hend), run_writeItems hl _ vs _ hend,
      run_gap _ (hl.line _), run_mark _ hclose]
    simp [Value.tokens]
  | .object ((key, v) :: es) => by
    have hopen : ofMark? '{' = some .openObject := rfl
    have hclose : ofMark? '}' = some .closeObject := rfl
    have hend := endsWord_close hl depth hclose rest
    simp only [Value.write, List.cons_append, List.append_assoc, List.nil_append]
    rw [run_mark _ hopen, run_gap _ (hl.line _), run_key _ hl,
      run_write hl _ v _ (endsWord_writeEntries es hend), run_writeEntries hl _ es _ hend,
      run_gap _ (hl.line _), run_mark _ hclose]
    simp [Value.tokens]

/-- What is written of further items is cut into their tokens. -/
theorem run_writeItems {l : Layout} (hl : l.Blank) (depth : Nat) (vs : List Value)
    (acc : List Token) {rest : List Char} (hrest : EndsWord rest) :
    run ⟨.between, acc⟩ (Value.writeItems l depth vs ++ rest) =
      run ⟨.between, (Value.itemTokens vs).reverse ++ acc⟩ rest :=
  match vs with
  | [] => rfl
  | v :: vs => by
    have hcomma : ofMark? ',' = some .comma := rfl
    simp only [Value.writeItems, List.cons_append, List.append_assoc]
    rw [run_mark _ hcomma, run_gap _ (hl.line _),
      run_write hl _ v _ (endsWord_writeItems vs hrest), run_writeItems hl _ vs _ hrest]
    simp [Value.itemTokens]

/-- What is written of further entries is cut into their tokens. -/
theorem run_writeEntries {l : Layout} (hl : l.Blank) (depth : Nat) (es : List (String × Value))
    (acc : List Token) {rest : List Char} (hrest : EndsWord rest) :
    run ⟨.between, acc⟩ (Value.writeEntries l depth es ++ rest) =
      run ⟨.between, (Value.entryTokens es).reverse ++ acc⟩ rest :=
  match es with
  | [] => rfl
  | (key, v) :: es => by
    have hcomma : ofMark? ',' = some .comma := rfl
    simp only [Value.writeEntries, List.cons_append, List.append_assoc]
    rw [run_mark _ hcomma, run_gap _ (hl.line _), run_key _ hl,
      run_write hl _ v _ (endsWord_writeEntries es hrest), run_writeEntries hl _ es _ hrest]
    simp [Value.entryTokens]

end

end Cutter

/-- The text of a value is cut into the tokens of the value. -/
theorem ofChars?_write {l : Layout} (hl : l.Blank) (depth : Nat) (v : Value) :
    ofChars? (v.write l depth) = some v.tokens := by
  have hend : Cutter.EndsWord [] := by
    intro c hc
    simp at hc
  have hrun := Cutter.run_write hl depth v [] hend
  rw [List.append_nil, List.append_nil] at hrun
  rw [ofChars?, ← Cutter.run, hrun]
  simp [Cutter.run, Cutter.finish]

end Token

end PlotAnnotation.Json
