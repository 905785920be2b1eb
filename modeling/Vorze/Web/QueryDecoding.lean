import Vorze.Web.Addressing

/-! # Decoding an encoded query

A client writes each pair as `key=value` and joins the pairs with `&`. The
split loop recovers the keys and the number of pairs; a value that contains `=`
is put together again without its `=` signs.
-/

namespace Vorze.HttpConnectSession

/-- The pairs a client can write into a target as they are. -/
structure Encodable (pairs : List (Bytes × Bytes)) : Prop where
  nonempty : pairs ≠ []
  key_nonempty : ∀ pair ∈ pairs, pair.1 ≠ []
  key_bytes : ∀ pair ∈ pairs, ∀ b ∈ pair.1, b ≠ ch '&' ∧ b ≠ ch '=' ∧ b ≠ ch '/' ∧ b ≠ ch ' '
  value_bytes : ∀ pair ∈ pairs, ∀ b ∈ pair.2, b ≠ ch '&' ∧ b ≠ ch '/' ∧ b ≠ ch ' '
  last_value : ∀ pair, pairs.getLast? = some pair → pair.2 ≠ []

/-! ## One piece -/

/-- Joining the parts between separators loses the separators and nothing else. -/
theorem flatten_splitOn (c : UInt8) (input : Bytes) :
    (input.splitOn c).flatten = input.filter (· != c) := by
  induction input with
  | nil => rfl
  | cons x rest ih =>
      rw [List.splitOn_cons_eq_if_modifyHead]
      by_cases hx : x = c
      · simp [hx, ih]
      · rw [if_neg (by simpa using hx), List.filter_cons_of_pos (by simpa using hx), ← ih]
        cases hsplit : rest.splitOn c with
        | nil => exact absurd hsplit (List.splitOn_ne_nil c rest)
        | cons part parts => simp

/-- The last two branches of the split agree: one part is its own join. -/
theorem splitPair_join {key : Bytes} (value : Bytes) (hkey : ch '=' ∉ key) :
    splitPair (key ++ ch '=' :: value) = some (key, value.filter (· != ch '=')) := by
  rw [splitPair, List.splitOn_append_cons_self_of_not_mem hkey, ← flatten_splitOn]
  match hsplit : value.splitOn (ch '=') with
  | [] => exact absurd hsplit (List.splitOn_ne_nil (ch '=') value)
  | [part] => simp
  | _ :: _ :: _ => rfl

/-! ## The whole query -/

/-- The split loop keeps every pair and its key, and drops `=` from the values. -/
theorem splitQuery_joinPairs {pairs : List (Bytes × Bytes)} (hne : pairs ≠ [])
    (hkeys : ∀ pair ∈ pairs, ch '&' ∉ pair.1 ∧ ch '=' ∉ pair.1)
    (hvalues : ∀ pair ∈ pairs, ch '&' ∉ pair.2) :
    splitQuery (joinPairs pairs) = pairs.map fun pair => (pair.1, pair.2.filter (· != ch '=')) := by
  have hpieces : ∀ piece ∈ pairs.map (fun pair => pair.1 ++ ch '=' :: pair.2), ch '&' ∉ piece := by
    intro piece hpiece
    obtain ⟨pair, hpair, rfl⟩ := List.mem_map.mp hpiece
    have hne : ch '&' ≠ ch '=' := by decide
    simp [(hkeys pair hpair).1, hvalues pair hpair, hne]
  rw [splitQuery, joinPairs, List.splitOn_intercalate _ hpieces (by simpa using hne),
    List.filterMap_map, ← List.filterMap_eq_map]
  apply List.filterMap_congr
  intro pair hpair
  exact splitPair_join pair.2 (hkeys pair hpair).2

/-- One complete pair is enough for the text to be a query. -/
theorem joinPairs_split {pairs : List (Bytes × Bytes)} {pair : Bytes × Bytes}
    (hmem : pair ∈ pairs) (hkey : pair.1 ≠ []) (hvalue : pair.2 ≠ []) :
    ∃ left right, left ≠ [] ∧ right ≠ [] ∧ joinPairs pairs = left ++ ch '=' :: right := by
  induction pairs with
  | nil => cases hmem
  | cons head rest ih =>
      by_cases hrest : rest = []
      · subst hrest
        obtain rfl := List.mem_singleton.mp hmem
        exact ⟨pair.1, pair.2, hkey, hvalue, by simp [joinPairs]⟩
      · have hjoin : joinPairs (head :: rest) =
            (head.1 ++ ch '=' :: head.2) ++ [ch '&'] ++ joinPairs rest := by
          rw [joinPairs, List.map_cons, List.intercalate_cons_of_ne_nil (by simpa using hrest)]
          rfl
        rcases List.mem_cons.mp hmem with rfl | hmem
        · exact ⟨pair.1, pair.2 ++ [ch '&'] ++ joinPairs rest, hkey, by simp, by simp [hjoin]⟩
        · obtain ⟨left, right, _, hright, heq⟩ := ih hmem
          exact ⟨(head.1 ++ ch '=' :: head.2) ++ [ch '&'] ++ left, right, by simp, hright,
            by simp [hjoin, heq]⟩

theorem mem_joinPairs {pairs : List (Bytes × Bytes)} {b : UInt8} (hb : b ∈ joinPairs pairs) :
    b = ch '&' ∨ ∃ pair ∈ pairs, b ∈ pair.1 ∨ b = ch '=' ∨ b ∈ pair.2 := by
  induction pairs with
  | nil => simp [joinPairs] at hb
  | cons head rest ih =>
      by_cases hrest : rest = []
      · subst hrest
        refine Or.inr ⟨head, List.mem_cons_self, ?_⟩
        simpa [joinPairs] using hb
      · rw [joinPairs, List.map_cons, List.intercalate_cons_of_ne_nil (by simpa using hrest)] at hb
        simp only [List.mem_append, List.mem_cons, List.not_mem_nil, or_false] at hb
        rcases hb with (hb | hb) | hb
        · exact Or.inr ⟨head, List.mem_cons_self, hb⟩
        · exact Or.inl hb
        · exact (ih hb).imp_right fun ⟨pair, hpair, h⟩ => ⟨pair, List.mem_cons_of_mem _ hpair, h⟩

/-- An encoded list reaches `path_op` with its values stripped of `=`. -/
theorem pathOpPairs_opTarget {pairs : List (Bytes × Bytes)}
    (hkeys : ∀ pair ∈ pairs, ∀ b ∈ pair.1, b ≠ ch '&' ∧ b ≠ ch '=' ∧ b ≠ ch '/' ∧ b ≠ ch ' ')
    (hvalues : ∀ pair ∈ pairs, ∀ b ∈ pair.2, b ≠ ch '&' ∧ b ≠ ch '/' ∧ b ≠ ch ' ')
    (hpair : ∃ pair ∈ pairs, pair.1 ≠ [] ∧ pair.2 ≠ []) :
    pathOpPairs (opTarget pairs) =
      some (pairs.map fun pair => (pair.1, pair.2.filter (· != ch '='))) := by
  obtain ⟨pair, hmem, hkey, hvalue⟩ := hpair
  have hquery : IsQueryText (joinPairs pairs) := by
    refine isQueryText_iff.mpr ⟨?_, joinPairs_split hmem hkey hvalue⟩
    intro b hb
    rcases mem_joinPairs hb with rfl | ⟨other, hother, hb | rfl | hb⟩
    · decide
    · exact (hkeys other hother b hb).2.2
    · decide
    · exact (hvalues other hother b hb).2
  have hroute : pathOpQuery (opTarget pairs) = some (joinPairs pairs) := by
    change pathOpQuery (text "/op" ++ ch '?' :: joinPairs pairs) = _
    rw [pathOpQuery_mark, tailQuery_mark, hquery.queryOrEnd, Option.some_or]
  rw [pathOpPairs, hroute, Option.map_some, splitQuery_joinPairs (List.ne_nil_of_mem hmem)]
  · exact fun other hother => ⟨fun h => (hkeys other hother _ h).1 rfl,
      fun h => (hkeys other hother _ h).2.1 rfl⟩
  · exact fun other hother h => (hvalues other hother _ h).1 rfl

/-- An encodable list comes back pair for pair exactly when no value contains `=`. -/
theorem pathOpPairs_perm_iff {pairs : List (Bytes × Bytes)} (hpairs : Encodable pairs) :
    (∃ decoded, pathOpPairs (opTarget pairs) = some decoded ∧ decoded.Perm pairs) ↔
      ∀ pair ∈ pairs, ch '=' ∉ pair.2 := by
  have hlast := List.getLast?_eq_some_getLast hpairs.nonempty
  have hmem := List.getLast_mem hpairs.nonempty
  have hdecode := pathOpPairs_opTarget hpairs.key_bytes hpairs.value_bytes
    ⟨_, hmem, hpairs.key_nonempty _ hmem, hpairs.last_value _ hlast⟩
  constructor
  · -- every value that comes back was filtered
    rintro ⟨decoded, hdecoded, hperm⟩ pair hpair
    rw [hdecode, Option.some.injEq] at hdecoded
    subst hdecoded
    obtain ⟨source, _, rfl⟩ := List.mem_map.mp (hperm.mem_iff.mpr hpair)
    simp
  · intro hvalues
    refine ⟨_, hdecode, List.Perm.of_eq ?_⟩
    conv_rhs => rw [← List.map_id pairs]
    apply List.map_congr_left
    intro pair hpair
    have hfilter : pair.2.filter (· != ch '=') = pair.2 := by
      rw [List.filter_eq_self]
      intro b hb
      have hne : b ≠ ch '=' := fun heq => hvalues pair hpair (heq ▸ hb)
      simpa using hne
    rw [hfilter, id]

theorem pathOpPairs_perm_two :
    (∃ decoded, pathOpPairs (opTarget [(text "a", text "1"), (text "b", text "2")]) = some decoded ∧
        decoded.Perm [(text "a", text "1"), (text "b", text "2")]) ↔
      ∀ pair ∈ [(text "a", text "1"), (text "b", text "2")], ch '=' ∉ pair.2 :=
  pathOpPairs_perm_iff ⟨by decide, by decide, by simp [text, ch], by simp [text, ch], by simp [text]⟩

/-- `a=b=c` comes back as the value `bc`. -/
theorem not_pathOpPairs_perm_equals :
    Encodable [(text "a", text "b=c")] ∧
      ¬ ∃ decoded, pathOpPairs (opTarget [(text "a", text "b=c")]) = some decoded ∧
        decoded.Perm [(text "a", text "b=c")] := by
  refine ⟨⟨by decide, by decide, by simp [text, ch], by simp [text, ch], by simp [text]⟩, ?_⟩
  rintro ⟨decoded, hdecoded, hperm⟩
  have hactual : pathOpPairs (opTarget [(text "a", text "b=c")]) =
      some [(text "a", text "bc")] := by decide
  rw [hactual, Option.some.injEq] at hdecoded
  subst hdecoded
  exact absurd (List.perm_singleton.mp hperm) (by decide)

end Vorze.HttpConnectSession
