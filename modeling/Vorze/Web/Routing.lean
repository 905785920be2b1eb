import Vorze.Web.Query

/-! # Which targets reach `path_op`

`PARSE_URL` prefers the longest path. What is left must be an optional `/`, an
optional `?` and either a query text or nothing, so the pattern is determined
by one function of the remaining bytes and the search for the longest path
whose remainder that function accepts.
-/

namespace Vorze.HttpConnectSession

open Regex

/-- What `[^/ ]+\=[^/ ]+` matches: query bytes with a `=` that is neither the
first nor the last of them. -/
def IsQueryText (input : Bytes) : Prop :=
  (∀ b ∈ input, queryByte b = true) ∧ ch '=' ∈ input.tail.dropLast

instance (input : Bytes) : Decidable (IsQueryText input) :=
  decidable_of_iff (input.all queryByte = true ∧ ch '=' ∈ input.tail.dropLast)
    (by simp [IsQueryText])

theorem mem_tail_dropLast_iff {input : Bytes} {b : UInt8} :
    b ∈ input.tail.dropLast ↔
      ∃ left right, left ≠ [] ∧ right ≠ [] ∧ input = left ++ b :: right := by
  constructor
  · intro hmem
    cases input with
    | nil => simp at hmem
    | cons x rest =>
        obtain ⟨middle, last, hmiddle⟩ := List.append_of_mem hmem
        have hne : rest ≠ [] := by
          rintro rfl
          simp at hmem
        refine ⟨x :: middle, last ++ [rest.getLast hne], by simp, by simp, ?_⟩
        calc x :: rest = x :: (rest.dropLast ++ [rest.getLast hne]) := by
              rw [List.dropLast_concat_getLast hne]
          _ = x :: middle ++ b :: (last ++ [rest.getLast hne]) := by
              rw [List.tail_cons] at hmiddle
              simp [hmiddle]
  · rintro ⟨left, right, hleft, hright, rfl⟩
    rw [List.tail_append_of_ne_nil hleft, List.dropLast_append_of_ne_nil (by simp),
      List.dropLast_cons_of_ne_nil hright]
    simp

/-- A query text, with what stands on each side of its `=`. -/
theorem isQueryText_iff {input : Bytes} :
    IsQueryText input ↔ (∀ b ∈ input, b ≠ ch '/' ∧ b ≠ ch ' ') ∧
      ∃ left right, left ≠ [] ∧ right ≠ [] ∧ input = left ++ ch '=' :: right := by
  simp [IsQueryText, mem_tail_dropLast_iff, queryByte]

theorem IsQueryText.ne_nil {input : Bytes} (h : IsQueryText input) : input ≠ [] := by
  rintro rfl
  simp [IsQueryText] at h

/-- The third group with nothing after it, or the end of the input. -/
def queryOrEnd (input : Bytes) : Option Bytes :=
  if IsQueryText input then some input else if input = [] then some [] else none

/-- An optional `?` before the query text. -/
def afterMark : Bytes → Option Bytes
  | [] => queryOrEnd []
  | x :: rest =>
      if x = ch '?' then (queryOrEnd rest).or (queryOrEnd (x :: rest)) else queryOrEnd (x :: rest)

/-- An optional `/`, an optional `?` and the query text: all that follows the path. -/
def tailQuery : Bytes → Option Bytes
  | [] => afterMark []
  | x :: rest =>
      if x = ch '/' then (afterMark rest).or (afterMark (x :: rest)) else afterMark (x :: rest)

/-- The path so far and the bytes after it, longest path first. -/
def longestPath (path : Bytes) : Bytes → Option (Bytes × Bytes)
  | [] => (tailQuery []).map fun query => (path, query)
  | x :: rest =>
      if pathByte x then
        (longestPath (path ++ [x]) rest).or ((tailQuery (x :: rest)).map fun query => (path, query))
      else (tailQuery (x :: rest)).map fun query => (path, query)

/-! ## The pattern computes these functions -/

/-- The continuation that ends a full match of `PARSE_URL`. -/
def finish (caps : Captures UInt8) (rest : Bytes) : Option (Bytes × Bytes) :=
  if rest.isEmpty then some ((caps 1).getD [], (caps 3).getD []) else none

/-- The pattern of the third group. -/
def queryPattern : Regex UInt8 :=
  .seq (.plus (.cls queryByte)) (.seq (.char (ch '=')) (.plus (.cls queryByte)))

theorem matches_queryPattern_iff {caps caps' : Captures UInt8} {input : Bytes} :
    Matches queryPattern caps input caps' [] ↔ caps' = caps ∧ IsQueryText input := by
  simp only [queryPattern, Regex.char, matches_seq_iff, matches_plus_cls_iff, matches_cls_iff,
    isQueryText_iff, beq_iff_eq]
  constructor
  · rintro ⟨caps₁, middle, ⟨rfl, left, hleft, hleftBytes, rfl⟩, caps₂, last, ⟨rfl, x, rfl, rfl⟩,
      rfl, right, hright, hrightBytes, rfl⟩
    refine ⟨rfl, ?_, left, right, hleft, hright, by simp⟩
    intro b hb
    simp only [List.append_nil, List.mem_append, List.mem_cons] at hb
    rcases hb with hb | rfl | hb
    · simpa [queryByte] using hleftBytes b hb
    · decide
    · simpa [queryByte] using hrightBytes b hb
  · rintro ⟨rfl, hbytes, left, right, hleft, hright, rfl⟩
    refine ⟨_, ch '=' :: right, ⟨rfl, left, hleft, ?_, rfl⟩, _, right, ⟨rfl, _, rfl, rfl⟩,
      rfl, right, hright, ?_, by simp⟩
    · intro b hb
      simpa [queryByte] using hbytes b (by simp [hb])
    · intro b hb
      simpa [queryByte] using hbytes b (by simp [hb])

theorem finish_eq_some_iff {caps : Captures UInt8} {rest : Bytes} {result : Bytes × Bytes} :
    finish caps rest = some result ↔
      rest = [] ∧ result = ((caps 1).getD [], (caps 3).getD []) := by
  cases rest <;> simp [finish, eq_comm]

theorem matcher_queryGroup (caps : Captures UInt8) (hcaps : caps 3 = none) (input : Bytes) :
    (Regex.opt (.group 3 queryPattern)).matcher finish caps input =
      (queryOrEnd input).map fun query => ((caps 1).getD [], query) := by
  simp only [matcher, queryOrEnd]
  by_cases hquery : IsQueryText input
  · -- every way to take the group captures the whole input
    rw [matcher_eq_some (b := ((caps 1).getD [], input))
      (matches_queryPattern_iff.mpr ⟨rfl, hquery⟩)]
    · simp [hquery]
    · simp [List.length_pos_iff.mpr hquery.ne_nil, finish]
    · intro caps' rest other hmatch hk
      rw [Option.ite_none_right_eq_some, finish_eq_some_iff] at hk
      obtain ⟨_, rfl, rfl⟩ := hk
      obtain ⟨rfl, _⟩ := matches_queryPattern_iff.mp hmatch
      simp
  · rw [matcher_eq_none]
    · cases input <;> simp [hquery, finish, hcaps]
    · intro caps' rest hmatch
      cases rest with
      | nil => exact absurd (matches_queryPattern_iff.mp hmatch).2 hquery
      | cons => simp [finish]

/-- The pattern after the path. -/
def tailPattern : Regex UInt8 :=
  .seq (.opt (.char (ch '/'))) (.seq (.opt (.char (ch '?'))) (.opt (.group 3 queryPattern)))

theorem matcher_opt_char (c : UInt8) (k : Captures UInt8 → Bytes → Option (Bytes × Bytes))
    (caps : Captures UInt8) (x : UInt8) (rest : Bytes) :
    (Regex.opt (.char c)).matcher k caps (x :: rest) =
      if x = c then (k caps rest).or (k caps (x :: rest)) else k caps (x :: rest) := by
  simp only [matcher, Regex.char, beq_iff_eq]
  split <;> simp

theorem matcher_tailPattern (caps : Captures UInt8) (hcaps : caps 3 = none) (input : Bytes) :
    tailPattern.matcher finish caps input =
      (tailQuery input).map fun query => ((caps 1).getD [], query) := by
  have hmark : ∀ input, (Regex.seq (.opt (.char (ch '?'))) (.opt (.group 3 queryPattern))).matcher
      finish caps input = (afterMark input).map fun query => ((caps 1).getD [], query) := by
    intro input
    rw [matcher]
    cases input with
    | nil => exact matcher_queryGroup caps hcaps []
    | cons x rest =>
        rw [matcher_opt_char, matcher_queryGroup caps hcaps, matcher_queryGroup caps hcaps]
        simp only [afterMark]
        split <;> simp [Option.map_or]
  rw [tailPattern, matcher]
  cases input with
  | nil => exact hmark []
  | cons x rest =>
      rw [matcher_opt_char, hmark, hmark]
      simp only [tailQuery]
      split <;> simp [Option.map_or]

/-- The second group stretches the path as far as it can. -/
theorem matcher_pathRun (k : Captures UInt8 → Bytes → Option (Bytes × Bytes))
    (caps : Captures UInt8) (path input : Bytes)
    (hk : ∀ run rest, input = run ++ rest →
      k caps rest = (tailQuery rest).map fun query => (path ++ run, query)) :
    (Regex.star (.cls pathByte)).matcher k caps input = longestPath path input := by
  induction input generalizing path with
  | nil => simpa [longestPath] using hk [] [] rfl
  | cons x rest ih =>
      have hstop := hk [] (x :: rest) rfl
      rw [matcher_star_cls_cons, longestPath, hstop, List.append_nil]
      split
      next =>
        rw [ih (path ++ [x])]
        intro run rest' hrest
        simpa using hk (x :: run) rest' (by simp [hrest])
      next => rfl

/-- `parseUrl` without the captures. -/
theorem parseUrl_eq_matcher (url : Bytes) :
    parseUrl url = PARSE_URL.matcher finish (fun _ => none) url := by
  rw [parseUrl, fullMatch, map_matcher]
  congr 1
  funext caps rest
  simp only [finish]
  split <;> rfl

/-- A target that starts with `/`: the longest path, or else no path at all. -/
theorem parseUrl_slash (body : Bytes) :
    parseUrl (ch '/' :: body) =
      (longestPath [ch '/'] body).or
        ((tailQuery (ch '/' :: body)).map fun query => ([], query)) := by
  have htail := matcher_tailPattern (fun _ => none) rfl (ch '/' :: body)
  have hpath : ∀ (caps : Captures UInt8) (run rest : Bytes), caps 3 = none → body = run ++ rest →
      tailPattern.matcher finish (Function.update caps 1 (some ((ch '/' :: body).take
        ((ch '/' :: body).length - rest.length)))) rest =
      (tailQuery rest).map fun query => (ch '/' :: run, query) := by
    intro caps run rest hcaps hbody
    rw [matcher_tailPattern _ (by simpa using hcaps)]
    subst hbody
    have hlength : (ch '/' :: (run ++ rest)).length - rest.length = run.length + 1 := by
      simp only [List.length_cons, List.length_append]
      omega
    rw [hlength]
    simp
  rw [parseUrl_eq_matcher]
  change (Regex.seq (.opt (.group 1 (.seq (.char (ch '/'))
    (.opt (.group 2 (.plus (.cls pathByte))))))) tailPattern).matcher finish _ _ = _
  rw [matcher, matcher, htail]
  congr 1
  simp only [Regex.char, matcher, BEq.rfl, ↓reduceIte]
  rw [if_pos (by simp), hpath _ [] body rfl rfl]
  cases body with
  | nil =>
      simp only [plus, matcher, longestPath, Option.none_or]
  | cons x rest =>
      simp only [plus, matcher, longestPath]
      split
      next =>
        congr 1
        change (Regex.star (.cls pathByte)).matcher _ _ rest = _
        apply matcher_pathRun
        intro run rest' hrest
        subst hrest
        have hname : rest'.length < (x :: (run ++ rest')).length := by
          rw [List.length_cons, List.length_append]
          omega
        have hpart : rest'.length < (ch '/' :: x :: (run ++ rest')).length :=
          Nat.lt_succ_of_lt hname
        rw [if_pos hname, if_pos hpart]
        exact hpath _ (x :: run) rest' (by simp) rfl
      next => rfl

theorem parseUrl_not_slash (url : Bytes) (hurl : url.head? ≠ some (ch '/')) :
    parseUrl url = (tailQuery url).map fun query => ([], query) := by
  rw [parseUrl_eq_matcher]
  have htail := matcher_tailPattern (fun _ => none) rfl url
  simp only [Option.getD_none] at htail
  change (Regex.seq _ tailPattern).matcher finish (fun _ => none) url = _
  rw [matcher, matcher, htail, matcher_eq_none, Option.none_or]
  intro caps' rest hmatch
  cases hmatch with
  | group hbody =>
      obtain ⟨_, _, hslash, _⟩ := matches_seq_iff.mp hbody
      obtain ⟨_, x, hx, rfl⟩ := matches_cls_iff.mp hslash
      simp_all

/-! ## The longest path -/

theorem prefix_of_longestPath {path input found query : Bytes}
    (h : longestPath path input = some (found, query)) : path <+: found := by
  induction input generalizing path with
  | nil =>
      simp only [longestPath, Option.map_eq_some_iff, Prod.mk.injEq] at h
      obtain ⟨_, _, rfl, _⟩ := h
      exact List.prefix_rfl
  | cons x rest ih =>
      have hstop : ((tailQuery (x :: rest)).map fun query => (path, query)) = some (found, query) →
          path <+: found := by
        simp only [Option.map_eq_some_iff, Prod.mk.injEq]
        rintro ⟨_, _, rfl, _⟩
        exact List.prefix_rfl
      rw [longestPath] at h
      split at h
      next =>
        rcases Option.or_eq_some_iff.mp h with hlong | ⟨_, hshort⟩
        · exact (List.prefix_append path [x]).trans (ih hlong)
        · exact hstop hshort
      next => exact hstop h

/-- A path that goes on past the part read so far reads the next byte. -/
theorem longestPath_extends_iff {path input more query : Bytes} {x : UInt8} :
    longestPath path input = some (path ++ x :: more, query) ↔
      ∃ rest, input = x :: rest ∧ pathByte x = true ∧
        longestPath (path ++ [x]) rest = some (path ++ x :: more, query) := by
  constructor
  · intro h
    cases input with
    | nil => simp [longestPath] at h
    | cons y rest =>
        rw [longestPath] at h
        split at h
        next hy =>
          rcases Option.or_eq_some_iff.mp h with hlong | ⟨_, hshort⟩
          · have hprefix := prefix_of_longestPath hlong
            rw [List.prefix_append_right_inj, List.singleton_prefix_cons_iff] at hprefix
            subst hprefix
            exact ⟨rest, rfl, hy, hlong⟩
          · simp at hshort
        next => simp at h
  · rintro ⟨rest, rfl, hx, hlong⟩
    rw [longestPath, if_pos hx, hlong, Option.some_or]

theorem longestPath_eq_none_iff {path input : Bytes} :
    longestPath path input = none ↔
      ∀ n ≤ (input.takeWhile pathByte).length, tailQuery (input.drop n) = none := by
  induction input generalizing path with
  | nil => simp [longestPath]
  | cons x rest ih =>
      by_cases hx : pathByte x = true
      · rw [longestPath, if_pos hx, Option.or_eq_none_iff, ih, Option.map_eq_none_iff,
          List.takeWhile_cons_of_pos hx]
        constructor
        · rintro ⟨hlong, hstop⟩ n hn
          cases n with
          | zero => exact hstop
          | succ n => exact hlong n (by simpa using hn)
        · intro h
          exact ⟨fun n hn => h (n + 1) (by simpa using hn), h 0 (Nat.zero_le _)⟩
      · rw [longestPath, if_neg hx, Option.map_eq_none_iff, List.takeWhile_cons_of_neg hx]
        simp

/-- Stopping at once: the remainder is acceptable and no longer path is. -/
theorem longestPath_stops_iff {path input query : Bytes} :
    longestPath path input = some (path, query) ↔
      tailQuery input = some query ∧
        ∀ n, 0 < n → n ≤ (input.takeWhile pathByte).length → tailQuery (input.drop n) = none := by
  cases input with
  | nil =>
      simp only [longestPath, Option.map_eq_some_iff, Prod.mk.injEq, true_and, exists_eq_right,
        List.takeWhile_nil, List.length_nil, Nat.le_zero_eq]
      refine ⟨fun h => ⟨h, ?_⟩, And.left⟩
      rintro n hpos rfl
      exact absurd hpos (Nat.lt_irrefl 0)
  | cons x rest =>
      have hstop : ((tailQuery (x :: rest)).map fun query => (path, query)) = some (path, query) ↔
          tailQuery (x :: rest) = some query := by
        simp
      by_cases hx : pathByte x = true
      · have hlong : ∀ found, longestPath (path ++ [x]) rest ≠ some (path, found) := by
          intro found h
          have hlength := (prefix_of_longestPath h).length_le
          simp only [List.length_append, List.length_singleton] at hlength
          omega
        rw [longestPath, if_pos hx, Option.or_eq_some_iff, hstop, or_iff_right (hlong query),
          longestPath_eq_none_iff, List.takeWhile_cons_of_pos hx, and_comm]
        refine and_congr_right fun _ => ⟨?_, ?_⟩
        · intro h n hpos hn
          obtain ⟨n, rfl⟩ := Nat.exists_eq_add_of_lt hpos
          exact h _ (by simpa using hn)
        · intro h n hn
          exact h (n + 1) (Nat.succ_pos n) (by simpa using hn)
      · rw [longestPath, if_neg hx, hstop, List.takeWhile_cons_of_neg hx]
        refine ⟨fun h => ⟨h, fun n hpos hn => ?_⟩, And.left⟩
        simp only [List.length_nil, Nat.le_zero_eq] at hn
        omega

theorem text_op : text "/op" = [ch '/', ch 'o', ch 'p'] := rfl

/-- Exactly the calls of `path_op`: the target starts with `/op`, the rest is a
query, and no longer path leaves a query behind. -/
theorem pathOpQuery_eq_some_iff {target query : Bytes} :
    pathOpQuery target = some query ↔
      ∃ rest, target = text "/op" ++ rest ∧ tailQuery rest = some query ∧
        ∀ n, 0 < n → n ≤ (rest.takeWhile pathByte).length → tailQuery (rest.drop n) = none := by
  have hparse : pathOpQuery target = some query ↔ parseUrl target = some (text "/op", query) := by
    rw [pathOpQuery, route]
    by_cases hroot : target = text "/"
    · subst hroot
      have hslash : parseUrl (text "/") = some (text "/", []) := by decide
      have hne : text "/" ≠ text "/op" := by decide
      simp [hslash, hne]
    · rw [if_neg hroot]
      cases parseUrl target with
      | none => simp
      | some pair =>
          obtain ⟨path, found⟩ := pair
          by_cases hpath : path = text "/op" <;> simp [hpath]
  rw [hparse]
  by_cases hslash : target.head? = some (ch '/')
  · obtain ⟨body, rfl⟩ := List.head?_eq_some_iff.mp hslash
    have hop : longestPath [ch '/'] body = some (text "/op", query) ↔
        ∃ rest, body = ch 'o' :: ch 'p' :: rest ∧
          longestPath (text "/op") rest = some (text "/op", query) := by
      have hnext : ∀ input, longestPath ([ch '/'] ++ [ch 'o']) input =
          some ([ch '/'] ++ [ch 'o'] ++ [ch 'p'], query) ↔ _ := fun _ => longestPath_extends_iff
      change longestPath [ch '/'] body = some ([ch '/'] ++ ch 'o' :: [ch 'p'], query) ↔ _
      rw [longestPath_extends_iff]
      constructor
      · rintro ⟨_, rfl, _, h⟩
        obtain ⟨rest, rfl, _, h⟩ := (hnext _).mp h
        exact ⟨rest, rfl, h⟩
      · rintro ⟨rest, rfl, h⟩
        exact ⟨_, rfl, by decide, (hnext _).mpr ⟨rest, rfl, by decide, h⟩⟩
    have hnoPath : ((tailQuery (ch '/' :: body)).map fun query => (([] : Bytes), query)) ≠
        some (text "/op", query) := by
      simp [text_op]
    rw [parseUrl_slash, Option.or_eq_some_iff, or_iff_left (fun h => hnoPath h.2), hop]
    simp only [longestPath_stops_iff, text_op, List.cons_append, List.nil_append,
      List.cons.injEq, true_and]
  · rw [parseUrl_not_slash target hslash]
    constructor
    · simp [text_op]
    · rintro ⟨rest, rfl, _⟩
      exact absurd rfl hslash

end Vorze.HttpConnectSession
