import PlotAnnotation.Proofs.Decimal.Order
import PlotAnnotation.Proofs.Graphs.Assembly

/-!
# The running total is exact until it is rounded

The running total is added up in words of 64 bits and only its values are doubles.  So each value is
the exact sum of the counts so far, rounded once (`Graph.HasPoints.roundsOnce`), and no error is
added up.  Rounding keeps the order of integers, so the totals never decrease; beyond 53 bits they
may stay the same although a count is not zero.

No addition of words overflows if the sum of all counts has 64 bits (`exists_word_totals`).
-/

namespace PlotAnnotation

/-- Each point has the number that belongs to its bucket as its value, rounded once. -/
def Graph.RoundsOnce (g : Graph) (dates : List DateBucket)
    (number : (i : ℕ) → i < dates.length → ℕ) : Prop :=
  ∀ i (h : i < dates.length), ∃ p, g.data[i]? = some p ∧
    p.value.isNaN = false ∧ p.value.isInf = false ∧
    Binary64.isNegative p.value = false ∧
    Binary64.magnitude p.value = Binary64.round (number i h)

/-- A number of 64 bits is rounded to a finite value. -/
lemma Graph.HasPoints.roundsOnce {g : Graph} {dates : List DateBucket}
    {number : (i : ℕ) → i < dates.length → ℕ} (h : g.HasPoints dates number) :
    g.RoundsOnce dates number := by
  intro i hi
  obtain ⟨-, hpoint⟩ := h.2 i hi
  have hfinite := h.isFinite _ (List.mem_of_getElem? hpoint)
  rw [Binary64.isFinite_eq, Bool.and_eq_true, Bool.not_eq_true', Bool.not_eq_true'] at hfinite
  exact ⟨_, hpoint, hfinite.1, hfinite.2, Binary64.isNegative_ofInt _, Binary64.magnitude_ofInt _⟩

namespace Graphs

variable {dates : List DateBucket}

/-! ### Sums of the counts so far -/

/-- With more buckets the sum of their counts is no smaller. -/
lemma sum_take_mono (dates : List DateBucket) {m n : ℕ} (h : m ≤ n) :
    ((dates.take m).map (·.count.toNat)).sum ≤ ((dates.take n).map (·.count.toNat)).sum := by
  have htake : dates.take m = (dates.take n).take m := by rw [List.take_take, min_eq_left h]
  rw [htake]
  exact sum_take_le (dates.take n) m

/-! ### The values of the running total -/

/-- The running total never decreases. -/
lemma pairwise_total (s : GraphSettings) (hsum : (dates.map (·.count.toNat)).sum < 2 ^ 64) :
    (total s dates).data.Pairwise (·.value ≤ ·.value) := by
  obtain ⟨hlength, hpoints⟩ := hasPoints_total s hsum
  rw [List.pairwise_iff_getElem]
  intro i j hi hj hij
  obtain ⟨-, hpi⟩ := hpoints i (hlength ▸ hi)
  obtain ⟨hlt, hpj⟩ := hpoints j (hlength ▸ hj)
  rw [List.getElem?_eq_getElem hi, Option.some.injEq] at hpi
  rw [List.getElem?_eq_getElem hj, Option.some.injEq] at hpj
  rw [hpi, hpj]
  exact Binary64.ofInt_mono (sum_take_mono dates (by omega)) hlt.le

/-- The running total ends with the sum of all counts. -/
lemma getLast?_total (s : GraphSettings) (hdates : dates ≠ [])
    (hsum : (dates.map (·.count.toNat)).sum < 2 ^ 64) :
    (total s dates).data.getLast?.map (·.value) =
      some (Binary64.ofInt ((dates.map (·.count.toNat)).sum : ℕ)) := by
  obtain ⟨hlength, hpoints⟩ := hasPoints_total s hsum
  have hpos := List.length_pos_iff.2 hdates
  obtain ⟨-, hpoint⟩ := hpoints (dates.length - 1) (by omega)
  have hall : dates.take (dates.length - 1 + 1) = dates := List.take_of_length_le (by omega)
  rw [List.getLast?_eq_getElem?, hlength, hpoint]
  simp only [hall, Option.map_some]

/-- **The graphs over time are exact up to one rounding.**  Settings that ask for them give two
graphs with a point for each bucket, at the instant of the bucket: the sum of the counts up to the
bucket in the first graph, its own count in the second.  Each value is rounded once and finite.  The
totals never decrease and end with the sum of all counts, and the words they are added up in hold
them.  Without a switch, a field or a bucket there is no graph. -/
theorem ofDates_exact (s : GraphSettings) (dates : List DateBucket) :
    (s.wantsDates = true → dates ≠ [] → (dates.map (·.count.toNat)).sum < 2 ^ 64 →
      ∃ running single, ofDates s dates = [running, single] ∧
        running.HasPoints dates (fun i _ => ((dates.take (i + 1)).map (·.count.toNat)).sum) ∧
        running.RoundsOnce dates (fun i _ => ((dates.take (i + 1)).map (·.count.toNat)).sum) ∧
        single.HasPoints dates (fun i _ => dates[i].count.toNat) ∧
        single.RoundsOnce dates (fun i _ => dates[i].count.toNat) ∧
        running.data.Pairwise (·.value ≤ ·.value) ∧
        running.data.getLast?.map (·.value) =
          some (Binary64.ofInt ((dates.map (·.count.toNat)).sum : ℕ)) ∧
        ∀ i (_ : i < dates.length), ∃ word, (totals 0 dates)[i]? = some word ∧
          word.toNat = ((dates.take (i + 1)).map (·.count.toNat)).sum) ∧
    (s.showDate = false ∨ s.dateField = none ∨ dates = [] → ofDates s dates = []) := by
  constructor
  · intro hwants hdates hsum
    have hrunning := hasPoints_total s hsum
    have hsingle := hasPoints_perSpan s dates
    refine ⟨total s dates, perSpan s dates, ?_, hrunning, hrunning.roundsOnce, hsingle,
      hsingle.roundsOnce, pairwise_total s hsum, getLast?_total s hdates hsum, ?_⟩
    · rw [ofDates, if_pos ⟨hwants, hdates⟩]
    · exact fun _ hi => exists_word_totals hsum hi
  · intro h
    refine if_neg ?_
    rintro ⟨hwants, hdates⟩
    obtain ⟨hshow, hfield⟩ := Bool.and_eq_true_iff.1 hwants
    rcases h with h | h | h
    · rw [h] at hshow
      contradiction
    · rw [h] at hfield
      contradiction
    · exact hdates h

/-- The greatest sum of 64 bits is rounded up, to the next power of two. -/
theorem ofDates_exact_leapSeconds :
    monthly.wantsDates = true ∧ leapSeconds ≠ [] ∧
    (leapSeconds.map (·.count.toNat)).sum < 2 ^ 64 ∧
    ∃ running single, ofDates monthly leapSeconds = [running, single] ∧
      running.data.Pairwise (·.value ≤ ·.value) ∧
      running.data.getLast?.map (·.value) = some (Binary64.ofInt (2 ^ 64)) := by
  have hsum : (leapSeconds.map (·.count.toNat)).sum < 2 ^ 64 := by
    decide
  obtain ⟨running, single, hgraphs, -, -, -, -, hpairwise, hlast, -⟩ :=
    (ofDates_exact monthly leapSeconds).1 rfl (List.cons_ne_nil _ _) hsum
  refine ⟨rfl, List.cons_ne_nil _ _, hsum, running, single, hgraphs, hpairwise, ?_⟩
  rw [hlast]
  decide

end Graphs

end PlotAnnotation
