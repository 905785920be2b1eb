import Mathlib.Data.List.TakeWhile
import Vorze.Web.Routing

/-! # When control routing is exact

A target addresses `path_op` when the text before its first `?` is `/op` and
the text after it is empty or a query text. The pattern makes the `?` optional
and lets a path end anywhere, so two kinds of target are routed to `path_op`
without addressing it; on every other target the routing is exact.
-/

namespace Vorze.HttpConnectSession

/-- The part of a target before its first `?`. -/
def beforeMark (target : Bytes) : Bytes := target.takeWhile (· != ch '?')

/-- The part of a target after its first `?`, empty if there is none. -/
def afterFirstMark (target : Bytes) : Bytes := (target.dropWhile (· != ch '?')).tail

/-- The targets that are meant for `path_op`. -/
def AddressesOp (target : Bytes) : Prop :=
  beforeMark target = text "/op" ∧
    (afterFirstMark target = [] ∨
      (∀ b ∈ afterFirstMark target, b ≠ ch '/' ∧ b ≠ ch ' ') ∧
        ∃ left right, left ≠ [] ∧ right ≠ [] ∧ afterFirstMark target = left ++ ch '=' :: right)

/-- `create_response` calls `path_op` on exactly the addressed targets, with
exactly the text after the first `?`. -/
def RoutedExactly (target : Bytes) : Prop :=
  ((pathOpQuery target).isSome ↔ AddressesOp target) ∧
    ∀ query, pathOpQuery target = some query → query = afterFirstMark target

/-- The text after the `?` starts with `=` and has no other `=` before its last
byte: the `?` itself becomes the name in front of the `=`. -/
def MarkTakenAsName (target : Bytes) : Prop :=
  ∃ value, target = text "/op?=" ++ value ∧ value ≠ [] ∧
    (∀ b ∈ value, queryByte b = true) ∧ ch '=' ∉ value.dropLast

/-- The remainders after `/op` that continue it with one byte and a `=`, before
a text after the `?` that is no query on its own. -/
def CutRemainder (input : Bytes) : Prop :=
  ∃ x run rest, input = x :: ch '=' :: (run ++ ch '?' :: rest) ∧
    (pathByte x = true ∧ x ≠ ch '/') ∧
    (∀ b ∈ run, pathByte b = true ∧ queryByte b = true ∧ b ≠ ch '=') ∧
    rest ≠ [] ∧ (∀ b ∈ rest, queryByte b = true) ∧ ch '=' ∉ rest.dropLast

/-- A longer path is cut after `/op` because its remainder there is a query. -/
def PathCutShort (target : Bytes) : Prop :=
  ∃ input, target = text "/op" ++ input ∧ CutRemainder input

/-! ## The remainder of a path -/

theorem IsQueryText.queryOrEnd {input : Bytes} (h : IsQueryText input) :
    queryOrEnd input = some input := if_pos h

theorem queryOrEnd_eq_none_iff {input : Bytes} :
    queryOrEnd input = none ↔ ¬ IsQueryText input ∧ input ≠ [] := by
  rw [queryOrEnd]
  by_cases hquery : IsQueryText input
  · simp [hquery]
  · by_cases hempty : input = [] <;> simp [hquery, hempty]

theorem queryByte_ne_slash {b : UInt8} (hb : queryByte b = true) : b ≠ ch '/' := by
  rintro rfl
  exact absurd hb (by decide)

theorem queryByte_ne_space {b : UInt8} (hb : queryByte b = true) : b ≠ ch ' ' := by
  rintro rfl
  exact absurd hb (by decide)

theorem pathByte_ne_mark {b : UInt8} (hb : pathByte b = true) : b ≠ ch '?' := by
  rintro rfl
  exact absurd hb (by decide)

theorem afterMark_eq_queryOrEnd {x : UInt8} {rest : Bytes} (hx : x ≠ ch '?') :
    afterMark (x :: rest) = queryOrEnd (x :: rest) := if_neg hx

theorem tailQuery_eq_queryOrEnd {x : UInt8} {rest : Bytes} (hslash : x ≠ ch '/')
    (hmark : x ≠ ch '?') : tailQuery (x :: rest) = queryOrEnd (x :: rest) := by
  rw [tailQuery, if_neg hslash, afterMark_eq_queryOrEnd hmark]

theorem tailQuery_mark (rest : Bytes) :
    tailQuery (ch '?' :: rest) = (queryOrEnd rest).or (queryOrEnd (ch '?' :: rest)) := by
  rw [tailQuery, if_neg (by decide), afterMark, if_pos rfl]

theorem afterMark_eq_none {input : Bytes} (h : tailQuery input = none) :
    afterMark input = none := by
  cases input with
  | nil => exact h
  | cons x rest =>
      rw [tailQuery] at h
      split at h
      · exact (Option.or_eq_none_iff.mp h).2
      · exact h

theorem not_isQueryText_of_tailQuery {input : Bytes} (h : tailQuery input = none) :
    ¬ IsQueryText input := by
  intro hquery
  have hmark := afterMark_eq_none h
  cases input with
  | nil => exact hquery.ne_nil rfl
  | cons x rest =>
      rw [afterMark] at hmark
      split at hmark
      · rw [Option.or_eq_none_iff, hquery.queryOrEnd] at hmark
        cases hmark.2
      · rw [hquery.queryOrEnd] at hmark
        cases hmark

/-- A space is in no class of the pattern. -/
theorem tailQuery_of_space {input : Bytes} (hspace : ch ' ' ∈ input) : tailQuery input = none := by
  have hend : ∀ {input : Bytes}, ch ' ' ∈ input → queryOrEnd input = none := by
    intro input hmem
    rw [queryOrEnd_eq_none_iff]
    exact ⟨fun hquery => queryByte_ne_space (hquery.1 _ hmem) rfl, List.ne_nil_of_mem hmem⟩
  have hmark : ∀ {input : Bytes}, ch ' ' ∈ input → afterMark input = none := by
    intro input hmem
    cases input with
    | nil => simp at hmem
    | cons x rest =>
        rw [afterMark]
        split
        next hx =>
          have hrest : ch ' ' ∈ rest := by
            rcases List.mem_cons.mp hmem with heq | hrest
            · exact absurd (heq.trans hx) (by decide)
            · exact hrest
          rw [hend hrest, hend hmem, Option.or_none]
        next => exact hend hmem
  cases input with
  | nil => simp at hspace
  | cons x rest =>
      rw [tailQuery]
      split
      next hx =>
        have hrest : ch ' ' ∈ rest := by
          rcases List.mem_cons.mp hspace with heq | hrest
          · exact absurd (heq.trans hx) (by decide)
          · exact hrest
        rw [hmark hrest, hmark hspace, Option.or_none]
      next => exact hmark hspace

/-! ## The two kinds of misrouted targets -/

/-- After `/op?`: the whole rest is read as a query unless it is not one, and
then the `?` is read as part of the query. -/
theorem isQueryText_mark_iff {rest : Bytes} (hrest : ¬ IsQueryText rest) :
    IsQueryText (ch '?' :: rest) ↔
      ∃ value, rest = ch '=' :: value ∧ value ≠ [] ∧
        (∀ b ∈ value, queryByte b = true) ∧ ch '=' ∉ value.dropLast := by
  constructor
  · rintro ⟨hbytes, hmem⟩
    have hall : ∀ b ∈ rest, queryByte b = true := fun b hb => hbytes b (List.mem_cons_of_mem _ hb)
    rw [List.tail_cons] at hmem
    cases rest with
    | nil => simp at hmem
    | cons x value =>
        have hinner : ch '=' ∉ value.dropLast := fun hinner => hrest ⟨hall, hinner⟩
        have hne : value ≠ [] := by
          rintro rfl
          simp at hmem
        rw [List.dropLast_cons_of_ne_nil hne, List.mem_cons] at hmem
        obtain rfl := hmem.resolve_right hinner
        exact ⟨value, rfl, hne, fun b hb => hall b (List.mem_cons_of_mem _ hb), hinner⟩
  · rintro ⟨value, rfl, hne, hbytes, _⟩
    refine ⟨?_, by simp [List.dropLast_cons_of_ne_nil hne]⟩
    intro b hb
    simp only [List.mem_cons] at hb
    rcases hb with rfl | rfl | hb
    · decide
    · decide
    · exact hbytes b hb

/-- A remainder that is read as a query while its tail is not is a query text
itself, and it does not begin with `/`: a path that takes the `/` leaves the
same remainder. -/
theorem isQueryText_of_tail_none {x : UInt8} {rest query : Bytes} (hx : pathByte x = true)
    (hquery : tailQuery (x :: rest) = some query) (hrest : tailQuery rest = none) :
    x ≠ ch '/' ∧ IsQueryText (x :: rest) := by
  have hslash : x ≠ ch '/' := by
    rintro rfl
    rw [tailQuery, if_pos rfl, afterMark_eq_none hrest, Option.none_or,
      afterMark_eq_queryOrEnd (by decide)] at hquery
    have hnone : queryOrEnd (ch '/' :: rest) = none :=
      queryOrEnd_eq_none_iff.mpr
        ⟨fun h => queryByte_ne_slash (h.1 _ List.mem_cons_self) rfl, by simp⟩
    rw [hnone] at hquery
    cases hquery
  refine ⟨hslash, ?_⟩
  by_contra hnot
  rw [tailQuery_eq_queryOrEnd hslash (pathByte_ne_mark hx),
    queryOrEnd_eq_none_iff.mpr ⟨hnot, by simp⟩] at hquery
  cases hquery

/-- The longest path stops at a `?`: at the end it would have succeeded, and
there is no space among query bytes. -/
theorem dropWhile_eq_mark {rest : Bytes} (hbytes : ∀ b ∈ rest, queryByte b = true)
    (hstop : tailQuery (rest.dropWhile pathByte) = none) :
    ∃ after, rest.dropWhile pathByte = ch '?' :: after := by
  cases hdrop : rest.dropWhile pathByte with
  | nil =>
      rw [hdrop] at hstop
      cases hstop
  | cons y after =>
      have hy : pathByte y = false := by
        have hhead := List.head?_dropWhile_not pathByte rest
        simpa [hdrop] using hhead
      have hyRest : y ∈ rest := by
        apply (List.dropWhile_suffix pathByte).mem
        simp [hdrop]
      have hspace := queryByte_ne_space (hbytes y hyRest)
      have hmark : y = ch '?' := by
        simpa [pathByte, hspace] using hy
      exact ⟨after, by rw [hmark]⟩

/-- The only inner `=` of a query text is right after its first byte when its
tail is no query text. -/
theorem eq_cons_equals {x : UInt8} {rest : Bytes} (hwhole : IsQueryText (x :: rest))
    (hrest : ¬ IsQueryText rest) :
    ∃ following, rest = ch '=' :: following ∧ ch '=' ∉ following.dropLast := by
  have hbytes : ∀ b ∈ rest, queryByte b = true := fun b hb =>
    hwhole.1 b (List.mem_cons_of_mem x hb)
  cases rest with
  | nil => exact absurd hwhole.2 (by simp)
  | cons y following =>
      have hne : following ≠ [] := by
        rintro rfl
        exact absurd hwhole.2 (by simp)
      have hinner : ch '=' ∉ following.dropLast := fun hmem => hrest ⟨hbytes, hmem⟩
      have hmem := hwhole.2
      rw [List.tail_cons, List.dropLast_cons_of_ne_nil hne, List.mem_cons] at hmem
      exact ⟨following, by rw [hmem.resolve_right hinner], hinner⟩

theorem cutRemainder_of_tailQuery {x : UInt8} {rest query : Bytes} (hx : pathByte x = true)
    (hquery : tailQuery (x :: rest) = some query)
    (hlonger : ∀ n ≤ (rest.takeWhile pathByte).length, tailQuery (rest.drop n) = none) :
    CutRemainder (x :: rest) := by
  have hsplit := List.takeWhile_append_dropWhile (p := pathByte) (l := rest)
  have hrest : tailQuery rest = none := hlonger 0 (Nat.zero_le _)
  have hstop : tailQuery (rest.dropWhile pathByte) = none := by
    have hdrop := hlonger _ (Nat.le_refl _)
    rwa [show rest.drop (rest.takeWhile pathByte).length = rest.dropWhile pathByte by
      calc rest.drop (rest.takeWhile pathByte).length
          = (rest.takeWhile pathByte ++ rest.dropWhile pathByte).drop
              (rest.takeWhile pathByte).length := by rw [hsplit]
        _ = rest.dropWhile pathByte := List.drop_left] at hdrop
  obtain ⟨hslash, hwhole⟩ := isQueryText_of_tail_none hx hquery hrest
  have hbytes : ∀ b ∈ rest, queryByte b = true := fun b hb =>
    hwhole.1 b (List.mem_cons_of_mem x hb)
  obtain ⟨after, hafter⟩ := dropWhile_eq_mark hbytes hstop
  obtain ⟨following, rfl, hinner⟩ := eq_cons_equals hwhole (not_isQueryText_of_tailQuery hrest)
  have hequals : pathByte (ch '=') = true := by decide
  rw [List.dropWhile_cons_of_pos hequals] at hafter
  have hfollowing := List.takeWhile_append_dropWhile (p := pathByte) (l := following)
  rw [hafter] at hfollowing
  rw [List.dropWhile_cons_of_pos hequals, hafter, tailQuery_mark, Option.or_eq_none_iff] at hstop
  have hne := (queryOrEnd_eq_none_iff.mp hstop.1).2
  rw [← hfollowing, List.dropLast_append_of_ne_nil (by simp),
    List.dropLast_cons_of_ne_nil hne] at hinner
  refine ⟨x, following.takeWhile pathByte, after, by rw [hfollowing], ⟨hx, hslash⟩, ?_, hne, ?_, ?_⟩
  · intro b hb
    refine ⟨List.mem_takeWhile_imp hb, hbytes b ?_, ?_⟩
    · exact List.mem_cons_of_mem _ (hfollowing ▸ List.mem_append_left _ hb)
    · rintro rfl
      exact hinner (List.mem_append_left _ hb)
  · intro b hb
    apply hbytes b
    rw [← hfollowing]
    simp [hb]
  · intro hmem
    exact hinner (by simp [hmem])

/-- A remainder whose only `=` signs are its first and its last byte is no query. -/
theorem tailQuery_eq_none_of_inner {front after : Bytes} (hne : after ≠ [])
    (hfront : ∀ b ∈ front, pathByte b = true ∧ b ≠ ch '/') (htail : ch '=' ∉ front.tail)
    (hafter : ch '=' ∉ after.dropLast) : tailQuery (front ++ ch '?' :: after) = none := by
  cases front with
  | nil =>
      rw [List.nil_append, tailQuery_mark, Option.or_eq_none_iff, queryOrEnd_eq_none_iff,
        queryOrEnd_eq_none_iff]
      refine ⟨⟨fun h => hafter ?_, hne⟩, fun h => hafter h.2, by simp⟩
      exact List.mem_of_mem_tail (List.tail_dropLast ▸ h.2)
  | cons y more =>
      obtain ⟨hy, hslash⟩ := hfront y List.mem_cons_self
      rw [List.cons_append, tailQuery_eq_queryOrEnd hslash (pathByte_ne_mark hy),
        queryOrEnd_eq_none_iff]
      refine ⟨fun h => ?_, by simp⟩
      have hmem := h.2
      rw [List.tail_cons, List.dropLast_append_of_ne_nil (by simp),
        List.dropLast_cons_of_ne_nil hne, List.mem_append, List.mem_cons] at hmem
      rcases hmem with hmem | heq | hmem
      · exact htail hmem
      · exact absurd heq (by decide)
      · exact hafter hmem

theorem tailQuery_of_cutRemainder {x : UInt8} {rest : Bytes} (h : CutRemainder (x :: rest)) :
    pathByte x = true ∧ (tailQuery (x :: rest)).isSome ∧
      ∀ n ≤ (rest.takeWhile pathByte).length, tailQuery (rest.drop n) = none := by
  obtain ⟨_, run, after, heq, ⟨hx, hslash⟩, hrun, hne, hafter, hinner⟩ := h
  obtain ⟨rfl, rfl⟩ := List.cons.inj heq
  have hequals : pathByte (ch '=') = true ∧ ch '=' ≠ ch '/' := by decide
  have hwhole : IsQueryText (x :: ch '=' :: (run ++ ch '?' :: after)) := by
    refine ⟨?_, by rw [List.tail_cons, List.dropLast_cons_of_ne_nil (by simp)]; simp⟩
    intro b hb
    simp only [List.mem_cons, List.mem_append] at hb
    rcases hb with rfl | rfl | hb | rfl | hb
    · simp_all [pathByte, queryByte]
    · decide
    · exact (hrun b hb).2.1
    · decide
    · exact hafter b hb
  refine ⟨hx, ?_, ?_⟩
  · rw [tailQuery_eq_queryOrEnd hslash (pathByte_ne_mark hx), hwhole.queryOrEnd]
    rfl
  · have hlongest : (ch '=' :: (run ++ ch '?' :: after)).takeWhile pathByte = ch '=' :: run := by
      rw [← List.cons_append, List.takeWhile_append_of_pos]
      · rw [List.takeWhile_cons_of_neg (by decide), List.append_nil]
      · intro b hb
        rcases List.mem_cons.mp hb with rfl | hb
        · exact hequals.1
        · exact (hrun b hb).1
    rw [hlongest]
    intro n hn
    rw [← List.cons_append, List.drop_append_of_le_length hn]
    apply tailQuery_eq_none_of_inner hne ?_ ?_ hinner
    · intro b hb
      rcases List.mem_cons.mp (List.mem_of_mem_drop hb) with rfl | hb
      · exact hequals
      · exact ⟨(hrun b hb).1, queryByte_ne_slash (hrun b hb).2.1⟩
    · rw [List.tail_drop, List.drop_succ_cons]
      exact fun hmem => (hrun _ (List.mem_of_mem_drop hmem)).2.2 rfl

/-! ## Exactness -/

theorem op_free_of_mark : ∀ b ∈ text "/op", (b != ch '?') = true :=
  List.all_eq_true.mp rfl

theorem beforeMark_op (input : Bytes) :
    beforeMark (text "/op" ++ input) = text "/op" ++ input.takeWhile (· != ch '?') := by
  rw [beforeMark, List.takeWhile_append_of_pos op_free_of_mark]

theorem afterFirstMark_op (input : Bytes) :
    afterFirstMark (text "/op" ++ input) = (input.dropWhile (· != ch '?')).tail := by
  rw [afterFirstMark, List.dropWhile_append_of_pos op_free_of_mark]

/-- A target with `/op` and a byte before its first `?` does not address `path_op`. -/
theorem not_addressesOp {x : UInt8} {rest : Bytes} (hx : x ≠ ch '?') :
    ¬ AddressesOp (text "/op" ++ x :: rest) := by
  rintro ⟨hbefore, _⟩
  rw [beforeMark_op, List.takeWhile_cons_of_pos (by simpa using hx)] at hbefore
  simp at hbefore

theorem addressesOp_mark_iff {query : Bytes} :
    AddressesOp (text "/op" ++ ch '?' :: query) ↔ query = [] ∨ IsQueryText query := by
  have hafter : afterFirstMark (text "/op" ++ ch '?' :: query) = query := by
    rw [afterFirstMark_op, List.dropWhile_cons_of_neg (by decide), List.tail_cons]
  have hbefore : beforeMark (text "/op" ++ ch '?' :: query) = text "/op" := by
    rw [beforeMark_op, List.takeWhile_cons_of_neg (by decide), List.append_nil]
  rw [AddressesOp, hafter, hbefore, isQueryText_iff]
  simp

theorem addressesOp_of_shorter {target : Bytes} (h : AddressesOp target) :
    ∃ input, target = text "/op" ++ input := by
  refine ⟨target.dropWhile (· != ch '?'), ?_⟩
  rw [← h.1, beforeMark, List.takeWhile_append_dropWhile]

theorem pathOpQuery_op {input query : Bytes} :
    pathOpQuery (text "/op" ++ input) = some query ↔ tailQuery input = some query ∧
      ∀ n, 0 < n → n ≤ (input.takeWhile pathByte).length → tailQuery (input.drop n) = none := by
  rw [pathOpQuery_eq_some_iff]
  simp only [List.append_cancel_left_eq, exists_eq_left']

/-- Directly after `/op`, a `?` ends the path. -/
theorem pathOpQuery_mark (rest : Bytes) :
    pathOpQuery (text "/op" ++ ch '?' :: rest) = tailQuery (ch '?' :: rest) := by
  apply Option.ext
  intro query
  rw [pathOpQuery_op, List.takeWhile_cons_of_neg (by decide)]
  refine and_iff_left fun n hpos hn => ?_
  rw [List.length_nil] at hn
  omega

theorem pathOpQuery_pathByte_isSome_iff {x : UInt8} {rest : Bytes} (hx : pathByte x = true) :
    (pathOpQuery (text "/op" ++ x :: rest)).isSome ↔ CutRemainder (x :: rest) := by
  rw [Option.isSome_iff_exists]
  constructor
  · rintro ⟨query, hquery⟩
    obtain ⟨htail, hlonger⟩ := pathOpQuery_op.mp hquery
    rw [List.takeWhile_cons_of_pos hx] at hlonger
    exact cutRemainder_of_tailQuery hx htail
      fun n hn => hlonger (n + 1) (Nat.succ_pos n) (by simpa using hn)
  · intro hcut
    obtain ⟨_, htail, hlonger⟩ := tailQuery_of_cutRemainder hcut
    obtain ⟨query, hquery⟩ := Option.isSome_iff_exists.mp htail
    refine ⟨query, pathOpQuery_op.mpr ⟨hquery, ?_⟩⟩
    rw [List.takeWhile_cons_of_pos hx]
    intro n hpos hn
    obtain ⟨n, rfl⟩ := Nat.exists_eq_add_of_lt hpos
    exact hlonger _ (by simpa using hn)

theorem not_cutRemainder {x : UInt8} {rest : Bytes} (hx : pathByte x = false) :
    ¬ CutRemainder (x :: rest) := by
  rintro ⟨_, _, _, heq, ⟨hpath, _⟩, _⟩
  obtain ⟨rfl, _⟩ := List.cons.inj heq
  rw [hx] at hpath
  cases hpath

theorem pathCutShort_op_iff {input : Bytes} :
    PathCutShort (text "/op" ++ input) ↔ CutRemainder input := by
  simp only [PathCutShort, List.append_cancel_left_eq, exists_eq_left']

theorem markTakenAsName_op_iff {input : Bytes} :
    MarkTakenAsName (text "/op" ++ input) ↔
      ∃ value, input = ch '?' :: ch '=' :: value ∧ value ≠ [] ∧
        (∀ b ∈ value, queryByte b = true) ∧ ch '=' ∉ value.dropLast := by
  have hsplit : ∀ value, text "/op?=" ++ value = text "/op" ++ ch '?' :: ch '=' :: value :=
    fun _ => rfl
  simp only [MarkTakenAsName, hsplit, List.append_cancel_left_eq]

/-- A query after `/op?` is passed on as it stands, unless it is neither empty
nor a query text and the `?` can be read as the name in front of its first `=`. -/
theorem routedExactly_mark_iff (rest : Bytes) :
    RoutedExactly (text "/op" ++ ch '?' :: rest) ↔
      ¬ MarkTakenAsName (text "/op" ++ ch '?' :: rest) := by
  have hafter : afterFirstMark (text "/op" ++ ch '?' :: rest) = rest := by
    rw [afterFirstMark_op, List.dropWhile_cons_of_neg (by decide), List.tail_cons]
  have hname : MarkTakenAsName (text "/op" ++ ch '?' :: rest) ↔
      ∃ value, rest = ch '=' :: value ∧ value ≠ [] ∧
        (∀ b ∈ value, queryByte b = true) ∧ ch '=' ∉ value.dropLast := by
    simp [markTakenAsName_op_iff]
  rw [RoutedExactly, pathOpQuery_mark, tailQuery_mark, addressesOp_mark_iff, hafter, hname]
  by_cases hgood : rest = [] ∨ IsQueryText rest
  · have hquery : queryOrEnd rest = some rest := by
      rcases hgood with rfl | hquery
      · rfl
      · exact hquery.queryOrEnd
    rw [hquery, Option.some_or]
    refine iff_of_true ⟨iff_of_true rfl hgood, fun query h => (Option.some.inj h).symm⟩ ?_
    rintro ⟨value, rfl, hne, _, hinner⟩
    rcases hgood with hempty | hquery
    · cases hempty
    · exact hinner hquery.2
  · obtain ⟨hne, hnot⟩ := not_or.mp hgood
    rw [queryOrEnd_eq_none_iff.mpr ⟨hnot, hne⟩, Option.none_or, ← isQueryText_mark_iff hnot]
    by_cases hmark : IsQueryText (ch '?' :: rest)
    · simp [hmark, hgood, hmark.queryOrEnd]
    · simp [hmark, hgood, queryOrEnd_eq_none_iff.mpr ⟨hmark, List.cons_ne_nil _ _⟩]

/-- With another byte after `/op` nothing is addressed, so routing is exact when
`path_op` is not called. -/
theorem routedExactly_other_iff {x : UInt8} {rest : Bytes} (hmark : x ≠ ch '?') :
    RoutedExactly (text "/op" ++ x :: rest) ↔ ¬ CutRemainder (x :: rest) := by
  have hexact : RoutedExactly (text "/op" ++ x :: rest) ↔
      ¬ (pathOpQuery (text "/op" ++ x :: rest)).isSome := by
    rw [RoutedExactly, iff_false_right (not_addressesOp hmark)]
    refine and_iff_left_of_imp fun hnone query hquery => ?_
    rw [hquery] at hnone
    exact absurd rfl hnone
  rw [hexact, not_iff_not]
  cases hpath : pathByte x with
  | true => exact pathOpQuery_pathByte_isSome_iff hpath
  | false =>
      have hspace : x = ch ' ' := by
        simpa [pathByte, hmark] using hpath
      subst hspace
      refine iff_of_false ?_ (not_cutRemainder hpath)
      rw [Option.isSome_iff_exists]
      rintro ⟨query, hquery⟩
      have htail := (pathOpQuery_op.mp hquery).1
      rw [tailQuery_of_space List.mem_cons_self] at htail
      cases htail

theorem routedExactly_op : RoutedExactly (text "/op") := by
  have hquery : pathOpQuery (text "/op") = some [] := by decide
  have haddress : AddressesOp (text "/op") := ⟨by decide, Or.inl (by decide)⟩
  refine ⟨iff_of_true (by rw [hquery]; rfl) haddress, ?_⟩
  intro query h
  rw [hquery] at h
  exact (Option.some.inj h).symm

/-- A target that does not start with `/op` is neither addressed nor routed there. -/
theorem routedExactly_of_not_op {target : Bytes} (hop : ¬ ∃ input, target = text "/op" ++ input) :
    RoutedExactly target := by
  have hnone : pathOpQuery target = none := by
    rw [Option.eq_none_iff_forall_ne_some]
    intro query hquery
    obtain ⟨rest, heq, _⟩ := pathOpQuery_eq_some_iff.mp hquery
    exact hop ⟨rest, heq⟩
  refine ⟨iff_of_false (by simp [hnone]) fun h => hop (addressesOp_of_shorter h), ?_⟩
  simp [hnone]

/-- Control routing is exact on every target but the two kinds above. -/
theorem routedExactly_iff (target : Bytes) :
    RoutedExactly target ↔ ¬ MarkTakenAsName target ∧ ¬ PathCutShort target := by
  by_cases hop : ∃ input, target = text "/op" ++ input
  · obtain ⟨input, rfl⟩ := hop
    rw [pathCutShort_op_iff]
    cases input with
    | nil =>
        refine iff_of_true (by simpa using routedExactly_op) ⟨?_, ?_⟩
        · rw [markTakenAsName_op_iff]
          rintro ⟨_, heq, _⟩
          cases heq
        · rintro ⟨_, _, _, heq, _⟩
          cases heq
    | cons x rest =>
        by_cases hmark : x = ch '?'
        · subst hmark
          rw [routedExactly_mark_iff]
          exact (and_iff_left (not_cutRemainder (by decide))).symm
        · have hname : ¬ MarkTakenAsName (text "/op" ++ x :: rest) := by
            rw [markTakenAsName_op_iff]
            rintro ⟨_, heq, _⟩
            exact hmark (List.cons.inj heq).1
          rw [routedExactly_other_iff hmark, and_iff_right hname]
  · refine iff_of_true (routedExactly_of_not_op hop) ⟨?_, ?_⟩
    · rintro ⟨value, rfl, _⟩
      exact hop ⟨ch '?' :: ch '=' :: value, rfl⟩
    · rintro ⟨input, rfl, _⟩
      exact hop ⟨input, rfl⟩

/-- `/opx=1?y` is handed to `path_op` with the query `x=1?y`. -/
theorem not_routedExactly_opx : ¬ RoutedExactly (text "/opx=1?y") := by
  intro h
  have hquery : pathOpQuery (text "/opx=1?y") = some (text "x=1?y") := by decide
  have hafter := h.2 _ hquery
  exact absurd hafter (by decide)

end Vorze.HttpConnectSession
