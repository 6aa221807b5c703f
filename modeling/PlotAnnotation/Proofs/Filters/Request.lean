import Mathlib.Data.List.Basic
import Mathlib.Data.List.TakeWhile
import PlotAnnotation.Proofs.Filters.Grouping
import PlotAnnotation.Proofs.Text.Percent
import PlotAnnotation.Proofs.Text.Utf8

/-!
# Filters of requests

A request is decoded before it is cut.  Neither the escapes nor the characters of UTF-8 reach across
a separator, so a request of two parts has the filters of both, merged
(`ofRequest_append_eq_merge`).  This holds of any text, also where an escape or a character is cut
short by the separator.

In the other direction, pairs that are written out are found again, grouped by field, however many
of the octets were escaped (`ofRequest_eq_grouped`).
-/

namespace PlotAnnotation.Filters

open Keyed Text

/-! ### Segments and pairs -/

/-- The segments are those of the list of characters. -/
lemma segments_eq_splitOn (cs : List Char) : segments cs = cs.splitOn '|' := by
  induction cs with
  | nil => rfl
  | cons c cs ih =>
    rw [List.splitOn_cons_eq_if_modifyHead, segments, ih]
    by_cases h : c = '|'
    · rw [if_pos h, if_pos (beq_iff_eq.2 h)]
    · obtain ⟨s, ss, hsplit⟩ := List.exists_cons_of_ne_nil (List.splitOn_ne_nil '|' cs)
      rw [if_neg h, if_neg (fun hbeq => h (beq_iff_eq.1 hbeq)), hsplit]
      rfl

/-- A field without a colon ends at the first one. -/
lemma pair?_append {field : List Char} (h : ':' ∉ field) (value : List Char) :
    pair? (field ++ ':' :: value) = some (String.ofList field, String.ofList value) := by
  have hfield : ∀ c ∈ field, (c != ':') = true := by
    intro c hc
    rw [bne_iff_ne]
    rintro rfl
    exact h hc
  rw [pair?, List.dropWhile_append_of_pos hfield, List.takeWhile_append_of_pos hfield]
  simp

/-- A segment that says something is written as the field, a colon and the value. -/
lemma eq_of_pair? {segment : List Char} {pair : String × String} (h : pair? segment = some pair) :
    ':' ∉ pair.1.toList ∧ segment = pair.1.toList ++ ':' :: pair.2.toList := by
  have hsplit : segment.takeWhile (· != ':') ++ segment.dropWhile (· != ':') = segment :=
    List.takeWhile_append_dropWhile
  unfold pair? at h
  cases hdrop : segment.dropWhile (· != ':') with
  | nil => simp [hdrop] at h
  | cons c value =>
    obtain rfl : c = ':' := by
      have hnot := List.head?_dropWhile_not (· != ':') segment
      rw [hdrop] at hnot
      simpa using hnot
    rw [hdrop, Option.some.injEq] at h
    subst h
    rw [String.toList_ofList, String.toList_ofList]
    refine ⟨fun hmem => ?_, ?_⟩
    · simpa using List.mem_takeWhile_imp hmem
    · rw [← hdrop, hsplit]

/-- A segment says something exactly if it has a colon. -/
lemma isSome_pair? (segment : List Char) : (pair? segment).isSome = decide (':' ∈ segment) := by
  rw [Bool.eq_iff_iff, decide_eq_true_iff]
  constructor
  · intro h
    obtain ⟨pair, hpair⟩ := Option.isSome_iff_exists.1 h
    rw [(eq_of_pair? hpair).2]
    simp
  · intro h
    obtain ⟨field, value, rfl, hfield⟩ := List.eq_append_cons_of_mem h
    rw [pair?_append hfield]
    rfl

/-- A segment begins with a field and a colon exactly if that is the field it is of. -/
lemma isPrefix_colon_iff {field name : List Char} (hfield : ':' ∉ field) (hname : ':' ∉ name)
    (value : List Char) : field ++ [':'] <+: name ++ ':' :: value ↔ field = name := by
  constructor
  · rintro ⟨rest, hrest⟩
    rw [List.append_assoc, List.singleton_append] at hrest
    have hpair := congrArg pair? hrest
    rw [pair?_append hfield, pair?_append hname, Option.some.injEq, Prod.mk.injEq] at hpair
    exact String.ofList_injective hpair.1
  · rintro rfl
    exact ⟨value, by simp⟩

/-- The pairs that a text without escapes says. -/
def pairs (text : List Char) : List (String × String) :=
  (segments text).filterMap pair?

/-- There are as many pairs as segments with a colon. -/
lemma length_pairs (text : List Char) :
    (pairs text).length = (text.splitOn '|').countP (':' ∈ ·) := by
  rw [pairs, List.length_filterMap_eq_countP, segments_eq_splitOn]
  apply List.countP_congr
  intro segment _
  rw [isSome_pair?]

/-- Written out again, the values of a field are the segments that begin with it and a colon. -/
lemma map_valuesOf_pairs {field : String} (hfield : ':' ∉ field.toList) (text : List Char) :
    (valuesOf field (pairs text)).map (fun value => field.toList ++ ':' :: value.toList) =
      (text.splitOn '|').filter fun segment => (field.toList ++ [':']).isPrefixOf segment := by
  rw [pairs, segments_eq_splitOn]
  induction text.splitOn '|' with
  | nil => rfl
  | cons segment segments ih =>
    cases hpair : pair? segment with
    | none =>
      have hnot : ¬field.toList ++ [':'] <+: segment := by
        intro hprefix
        have hcolon : ':' ∈ segment := hprefix.subset (by simp)
        have hnone := isSome_pair? segment
        rw [hpair, decide_eq_true hcolon] at hnone
        contradiction
      rw [List.filterMap_cons_none hpair, List.filter_cons_of_neg (by simpa using hnot), ih]
    | some pair =>
      obtain ⟨hname, rfl⟩ := eq_of_pair? hpair
      have hiff := isPrefix_colon_iff hfield hname pair.2.toList
      rw [List.filterMap_cons_some hpair]
      by_cases heq : field = pair.1
      · rw [List.filter_cons_of_pos (by simpa using hiff.2 (congrArg _ heq)), ← ih, valuesOf,
          List.filter_cons_of_pos (by simpa using heq), List.map_cons, List.map_cons, heq]
        rfl
      · have hne : field.toList ≠ pair.1.toList := fun h => heq (String.toList_inj.1 h)
        rw [List.filter_cons_of_neg (by simpa using mt hiff.1 hne), ← ih, valuesOf,
          List.filter_cons_of_neg (by simpa using heq)]
        rfl

/-- The pairs before a separator come before those after it. -/
lemma pairs_append (cs ds : List Char) : pairs (cs ++ '|' :: ds) = pairs cs ++ pairs ds := by
  unfold pairs
  rw [segments_eq_splitOn, segments_eq_splitOn, segments_eq_splitOn,
    List.splitOn_append_cons_self, List.filterMap_append]

/-! ### Requests of two parts -/

/-- A separator is decoded as itself, and what stands on either side by itself. -/
lemma decoded_append (a b : String) : decoded (a ++ "|" ++ b) = decoded a ++ '|' :: decoded b := by
  have hencode : Utf8.encode (a ++ "|" ++ b).toList =
      Utf8.encode a.toList ++ 0x7C :: Utf8.encode b.toList := by
    rw [String.toList_append, String.toList_append, Utf8.encode_append, Utf8.encode_append,
      List.append_assoc]
    rfl
  have hbar : Char.ofNat (0x7C : UInt8).toNat = '|' := rfl
  unfold decoded
  rw [hencode, Percent.decode_append_of_bare _ (by decide) (by decide),
    Utf8.decode_append_ascii _ (by decide), hbar]

/-- The filters of a request of two parts are those of the parts, merged: the fields of the first
part and then the new ones of the second, each with its values in the first part and then in the
second.  The fields are distinct and none is without values.  Cut at the bars, the decoded text has
a segment for each value, which is written as the field, a colon and the value; there are as many
values as segments with a colon. -/
theorem ofRequest_append_eq_merge (a b : String) :
    ofRequest (a ++ "|" ++ b) = merge (ofRequest a) (ofRequest b) ∧
    keys (ofRequest (a ++ "|" ++ b)) =
      keys (ofRequest a) ++ (keys (ofRequest b)).filter (fun field => field ∉ keys (ofRequest a)) ∧
    (∀ field, values field (ofRequest (a ++ "|" ++ b)) =
      values field (ofRequest a) ++ values field (ofRequest b)) ∧
    (keys (ofRequest (a ++ "|" ++ b))).Nodup ∧
    (∀ e ∈ ofRequest (a ++ "|" ++ b), e.2 ≠ []) ∧
    (∀ field : String, ':' ∉ field.toList →
      (values field (ofRequest (a ++ "|" ++ b))).map
          (fun value => field.toList ++ ':' :: value.toList) =
        ((Utf8.decode (Percent.decode (Utf8.encode (a ++ "|" ++ b).toList))).splitOn '|').filter
          fun segment => (field.toList ++ [':']).isPrefixOf segment) ∧
    (ofRequest (a ++ "|" ++ b)).total =
      ((Utf8.decode (Percent.decode (Utf8.encode (a ++ "|" ++ b).toList))).splitOn '|').countP
        (':' ∈ ·) := by
  have hmerge : ofRequest (a ++ "|" ++ b) = merge (ofRequest a) (ofRequest b) := by
    change gather (pairs (decoded (a ++ "|" ++ b))) = _
    rw [decoded_append, pairs_append, gather_append]
    rfl
  refine ⟨hmerge, ?_, ?_, nodup_keys_gather _, ne_nil_of_mem_gather _, ?_, ?_⟩
  · rw [hmerge, keys_merge]
  · intro field
    rw [hmerge, values_merge]
  · intro field hfield
    rw [← map_valuesOf_pairs hfield, ← values_gather]
    rfl
  · rw [← length_pairs]
    exact total_gather _

/-- An escape and a character are cut short by the separator, and a field comes on both sides of it.
The escape is read as it stands and the character is replaced; the field has both of its values. -/
theorem ofRequest_append_eq_merge_beans :
    ofRequest "beans:4%7Crice:%C3%" = [("beans", ["4"]), ("rice", ["\uFFFD%"])] ∧
    ofRequest "A9:2|beans:%zz|none" = [("A9", ["2"]), ("beans", ["%zz"])] ∧
    ofRequest ("beans:4%7Crice:%C3%" ++ "|" ++ "A9:2|beans:%zz|none") =
      [("beans", ["4", "%zz"]), ("rice", ["\uFFFD%"]), ("A9", ["2"])] ∧
    ((Utf8.decode (Percent.decode (Utf8.encode
      ("beans:4%7Crice:%C3%" ++ "|" ++ "A9:2|beans:%zz|none").toList))).splitOn '|').countP
        (':' ∈ ·) = 4 := by
  have hfirst : ofRequest "beans:4%7Crice:%C3%" = [("beans", ["4"]), ("rice", ["\uFFFD%"])] := by
    decide +kernel
  have hsecond : ofRequest "A9:2|beans:%zz|none" = [("A9", ["2"]), ("beans", ["%zz"])] := by
    decide +kernel
  obtain ⟨hmerge, -, -, -, -, -, htotal⟩ :=
    ofRequest_append_eq_merge "beans:4%7Crice:%C3%" "A9:2|beans:%zz|none"
  have hmerged : ofRequest ("beans:4%7Crice:%C3%" ++ "|" ++ "A9:2|beans:%zz|none") =
      [("beans", ["4", "%zz"]), ("rice", ["\uFFFD%"]), ("A9", ["2"])] := by
    rw [hmerge, hfirst, hsecond]
    rfl
  refine ⟨hfirst, hsecond, hmerged, ?_⟩
  rw [← htotal, hmerged]
  rfl

/-! ### Pairs written out -/

/-- Pairs written out, without escapes. -/
def spelled (pairs : List (String × String)) : String :=
  "|".intercalate (pairs.map fun pair => pair.1 ++ ":" ++ pair.2)

/-- The filters of the octets of a request. -/
def ofOctets (octets : List UInt8) : Filters :=
  gather (pairs (Utf8.decode (Percent.decode octets)))

/-- The filters of a request are those of its octets. -/
lemma ofRequest_eq_ofOctets (raw : String) : ofRequest raw = ofOctets (Utf8.encode raw.toList) :=
  rfl

/-- Pairs that are written out are found again, if no field has a separator and no value a bar. -/
lemma pairs_spelled {ps : List (String × String)}
    (hfields : ∀ pair ∈ ps, ':' ∉ pair.1.toList ∧ '|' ∉ pair.1.toList)
    (hvalues : ∀ pair ∈ ps, '|' ∉ pair.2.toList) : pairs (spelled ps).toList = ps := by
  have hlist : (spelled ps).toList =
      ['|'].intercalate (ps.map fun pair => pair.1.toList ++ ':' :: pair.2.toList) := by
    rw [spelled, String.toList_intercalate, List.map_map]
    congr 1
    apply List.map_congr_left
    intro pair _
    simp
  rcases eq_or_ne ps [] with rfl | hne
  · rfl
  have hbar : ∀ segment ∈ ps.map (fun pair => pair.1.toList ++ ':' :: pair.2.toList),
      '|' ∉ segment := by
    intro segment hsegment
    obtain ⟨pair, hpair, rfl⟩ := List.mem_map.1 hsegment
    simp [(hfields pair hpair).2, hvalues pair hpair]
  rw [hlist, pairs, segments_eq_splitOn, List.splitOn_intercalate '|' hbar (by simp [hne]),
    List.filterMap_map]
  have hpair : ∀ pair ∈ ps,
      (pair? ∘ fun pair : String × String => pair.1.toList ++ ':' :: pair.2.toList) pair =
        some pair := by
    intro pair hpair
    rw [Function.comp_apply, pair?_append (hfields pair hpair).1, String.ofList_toList,
      String.ofList_toList]
  rw [List.filterMap_congr hpair, List.filterMap_some]

/-- Pairs written out with any of their octets escaped are found again, grouped by field: as octets,
and as a text wherever the octets are those of one. -/
theorem ofRequest_eq_grouped {ps : List (String × String)}
    (hfields : ∀ pair ∈ ps, ':' ∉ pair.1.toList ∧ '|' ∉ pair.1.toList)
    (hvalues : ∀ pair ∈ ps, '|' ∉ pair.2.toList) {octets : List UInt8}
    (hescapes : Percent.Escapes (Utf8.encode (spelled ps).toList) octets) :
    ofOctets octets = grouped ps ∧
      ∀ raw : String, Utf8.encode raw.toList = octets → ofRequest raw = grouped ps := by
  have hoctets : ofOctets octets = grouped ps := by
    rw [ofOctets, Percent.decode_of_escapes hescapes, Utf8.decode_encode,
      pairs_spelled hfields hvalues, gather_eq_grouped]
  constructor
  · exact hoctets
  · intro raw hraw
    rw [ofRequest_eq_ofOctets, hraw, hoctets]

/-- A field that comes twice, a value that is a colon and one that is a percent sign. -/
def mixedPairs : List (String × String) :=
  [("é", "%"), ("a", ":"), ("é", "")]

/-- One `é` escaped in letters of both cases and one as it is, separators of either kind. -/
def mixedRequest : String :=
  "%C3%a9:%25|a%3A:%7Cé:"

/-- The pairs are found again, with the values of a field that came twice together. -/
theorem ofRequest_mixedRequest :
    (∀ pair ∈ mixedPairs, ':' ∉ pair.1.toList ∧ '|' ∉ pair.1.toList) ∧
    (∀ pair ∈ mixedPairs, '|' ∉ pair.2.toList) ∧
    Percent.Escapes (Utf8.encode (spelled mixedPairs).toList) (Utf8.encode mixedRequest.toList) ∧
    ofRequest mixedRequest = [("é", ["%", ""]), ("a", [":"])] := by
  have hfields : ∀ pair ∈ mixedPairs, ':' ∉ pair.1.toList ∧ '|' ∉ pair.1.toList := by
    decide
  have hvalues : ∀ pair ∈ mixedPairs, '|' ∉ pair.2.toList := by
    decide
  have hspelled : Utf8.encode (spelled mixedPairs).toList =
      [0xC3, 0xA9, 0x3A, 0x25, 0x7C, 0x61, 0x3A, 0x3A, 0x7C, 0xC3, 0xA9, 0x3A] := by
    decide
  have hrequest : Utf8.encode mixedRequest.toList =
      [0x25, 0x43, 0x33, 0x25, 0x61, 0x39, 0x3A, 0x25, 0x32, 0x35, 0x7C, 0x61, 0x25, 0x33, 0x41,
        0x3A, 0x25, 0x37, 0x43, 0xC3, 0xA9, 0x3A] := by
    decide
  have hescapes : Percent.Escapes (Utf8.encode (spelled mixedPairs).toList)
      (Utf8.encode mixedRequest.toList) := by
    rw [hspelled, hrequest]
    exact .escape true true <| .escape false true <| .plain (by decide) <| .escape true true <|
      .plain (by decide) <| .plain (by decide) <| .escape true true <| .plain (by decide) <|
      .escape true true <| .plain (by decide) <| .plain (by decide) <| .plain (by decide) .nil
  exact ⟨hfields, hvalues, hescapes, (ofRequest_eq_grouped hfields hvalues hescapes).2 _ rfl⟩

end PlotAnnotation.Filters
