import Mathlib.Logic.Function.Basic
import Mathlib.Data.List.Infix

/-! # Greedy backtracking regular expressions

The matcher is written with success continuations, the way the ECMAScript
grammar defines it: alternatives are tried in greedy order and the captures are
those of the first attempt whose continuation succeeds. Backtracking order only
selects among the derivations of `Matches`; whether there is any match at all
does not depend on it.
-/

namespace Vorze

universe u v

/-- Patterns over an arbitrary alphabet; a character class is its predicate. -/
inductive Regex (α : Type u)
  | empty
  | cls (accepts : α → Bool)
  | seq (first second : Regex α)
  | opt (body : Regex α)
  | star (body : Regex α)
  | group (index : Nat) (body : Regex α)
  | atEnd

namespace Regex

variable {α : Type u} {β : Type v}

/-- The text of each group that took part in the match. -/
abbrev Captures (α : Type u) := Nat → Option (List α)

/-- One or more repetitions. -/
def plus (body : Regex α) : Regex α := .seq body (.star body)

/-- A single given character. -/
def char [DecidableEq α] (c : α) : Regex α := .cls fun x => x == c

/-- Greedy repetition of a matcher: another round first, then stopping here.
An empty round is a failure, so the remaining length bounds the rounds. -/
def repeatGreedy
    (body : (Captures α → List α → Option β) → Captures α → List α → Option β)
    (k : Captures α → List α → Option β) : Nat → Captures α → List α → Option β
  | 0, caps, input => k caps input
  | rounds + 1, caps, input =>
      (body (fun caps' rest =>
        if rest.length < input.length then repeatGreedy body k rounds caps' rest else none)
        caps input).or (k caps input)

/-- Match a pattern at the front of the input and hand the captures and the
remaining input to the continuation. -/
def matcher : Regex α → (Captures α → List α → Option β) → Captures α → List α → Option β
  | .empty, k, caps, input => k caps input
  | .cls accepts, k, caps, input =>
      match input with
      | [] => none
      | x :: rest => if accepts x then k caps rest else none
  | .seq first second, k, caps, input =>
      first.matcher (fun caps' rest => second.matcher k caps' rest) caps input
  | .opt body, k, caps, input =>
      (body.matcher (fun caps' rest =>
        if rest.length < input.length then k caps' rest else none) caps input).or (k caps input)
  | .star body, k, caps, input =>
      repeatGreedy (fun k' caps' rest => body.matcher k' caps' rest) k input.length caps input
  | .group index body, k, caps, input =>
      body.matcher (fun caps' rest =>
        k (Function.update caps' index (some (input.take (input.length - rest.length)))) rest)
        caps input
  | .atEnd, k, caps, input => if input.isEmpty then k caps input else none

/-- `regex_match`: the first attempt that consumes the whole input. -/
def fullMatch (r : Regex α) (input : List α) : Option (Captures α) :=
  r.matcher (fun caps rest => if rest.isEmpty then some caps else none) (fun _ => none) input

/-- `regex_search`: the first match at the leftmost place where there is one. -/
def search (r : Regex α) (input : List α) : Option (Captures α) :=
  input.tails.findSome? (r.matcher (fun caps _ => some caps) fun _ => none)

/-! ## Derivations -/

/-- `Matches r caps input caps' rest`: some attempt of `r` consumes `input` up
to `rest`. Optional and repeated bodies never take an empty round. -/
inductive Matches : Regex α → Captures α → List α → Captures α → List α → Prop
  | empty (caps input) : Matches .empty caps input caps input
  | cls {accepts : α → Bool} {x : α} (caps rest) (hx : accepts x = true) :
      Matches (.cls accepts) caps (x :: rest) caps rest
  | seq {first second caps input caps₁ middle caps₂ rest}
      (hfirst : Matches first caps input caps₁ middle)
      (hsecond : Matches second caps₁ middle caps₂ rest) :
      Matches (.seq first second) caps input caps₂ rest
  | optSkip (body caps input) : Matches (.opt body) caps input caps input
  | optTake {body caps input caps' rest} (hbody : Matches body caps input caps' rest)
      (hlt : rest.length < input.length) : Matches (.opt body) caps input caps' rest
  | starStop (body caps input) : Matches (.star body) caps input caps input
  | starTake {body caps input caps₁ middle caps₂ rest}
      (hbody : Matches body caps input caps₁ middle) (hlt : middle.length < input.length)
      (hstar : Matches (.star body) caps₁ middle caps₂ rest) :
      Matches (.star body) caps input caps₂ rest
  | group {index body caps input caps' rest} (hbody : Matches body caps input caps' rest) :
      Matches (.group index body) caps input
        (Function.update caps' index (some (input.take (input.length - rest.length)))) rest
  | atEnd (caps) : Matches .atEnd caps [] caps []

private theorem repeatGreedy_sound (body : Regex α) (k : Captures α → List α → Option β)
    (hbody : ∀ (k' : Captures α → List α → Option β) caps input result,
      body.matcher k' caps input = some result →
      ∃ caps' rest, Matches body caps input caps' rest ∧ k' caps' rest = some result)
    (rounds : Nat) (caps : Captures α) (input : List α) (result : β)
    (hrun : repeatGreedy (fun k' caps' rest => body.matcher k' caps' rest) k rounds caps input =
      some result) :
    ∃ caps' rest, Matches (.star body) caps input caps' rest ∧ k caps' rest = some result := by
  induction rounds generalizing caps input with
  | zero => exact ⟨caps, input, .starStop _ _ _, hrun⟩
  | succ rounds ih =>
      simp only [repeatGreedy, Option.or_eq_some_iff] at hrun
      rcases hrun with htake | ⟨_, hstop⟩
      · obtain ⟨caps₁, middle, hmatch, hrest⟩ := hbody _ _ _ _ htake
        split at hrest
        next hlt =>
          obtain ⟨caps₂, rest, hstar, hk⟩ := ih caps₁ middle hrest
          exact ⟨caps₂, rest, .starTake hmatch hlt hstar, hk⟩
        next => cases hrest
      · exact ⟨caps, input, .starStop _ _ _, hstop⟩

/-- Whatever the matcher returns comes from a derivation its continuation accepted. -/
theorem matcher_sound (r : Regex α) (k : Captures α → List α → Option β)
    (caps : Captures α) (input : List α) (result : β)
    (hrun : r.matcher k caps input = some result) :
    ∃ caps' rest, Matches r caps input caps' rest ∧ k caps' rest = some result := by
  induction r generalizing k caps input result with
  | empty => exact ⟨caps, input, .empty _ _, hrun⟩
  | cls accepts =>
      cases input with
      | nil => cases hrun
      | cons x rest =>
          simp only [matcher] at hrun
          split at hrun
          next hx => exact ⟨caps, rest, .cls _ _ hx, hrun⟩
          next => cases hrun
  | seq first second ihfirst ihsecond =>
      obtain ⟨caps₁, middle, hfirst, hrest⟩ := ihfirst _ _ _ _ hrun
      obtain ⟨caps₂, rest, hsecond, hk⟩ := ihsecond _ _ _ _ hrest
      exact ⟨caps₂, rest, .seq hfirst hsecond, hk⟩
  | opt body ih =>
      simp only [matcher, Option.or_eq_some_iff] at hrun
      rcases hrun with htake | ⟨_, hskip⟩
      · obtain ⟨caps', rest, hbody, hk⟩ := ih _ _ _ _ htake
        split at hk
        next hlt => exact ⟨caps', rest, .optTake hbody hlt, hk⟩
        next => cases hk
      · exact ⟨caps, input, .optSkip _ _ _, hskip⟩
  | star body ih => exact repeatGreedy_sound body k ih input.length caps input result hrun
  | group index body ih =>
      obtain ⟨caps', rest, hbody, hk⟩ := ih _ _ _ _ hrun
      exact ⟨_, rest, .group hbody, hk⟩
  | atEnd =>
      simp only [matcher] at hrun
      split at hrun
      next hempty =>
        obtain rfl := List.isEmpty_iff.mp hempty
        exact ⟨caps, [], .atEnd _, hrun⟩
      next => cases hrun

private theorem isSome_repeatGreedy (body : Regex α) (k : Captures α → List α → Option β)
    (hbody : ∀ (k' : Captures α → List α → Option β) {caps input caps' rest},
      Matches body caps input caps' rest → (k' caps' rest).isSome →
      (body.matcher k' caps input).isSome)
    {caps caps' : Captures α} {input rest : List α} {pattern : Regex α}
    (hpattern : pattern = .star body) (hmatch : Matches pattern caps input caps' rest)
    (hk : (k caps' rest).isSome) (rounds : Nat) (hrounds : input.length ≤ rounds) :
    (repeatGreedy (fun k' caps' rest => body.matcher k' caps' rest) k rounds caps input).isSome := by
  induction hmatch generalizing rounds with
  | starStop _ caps input =>
      cases rounds with
      | zero => exact hk
      | succ rounds => simp [repeatGreedy, hk]
  | @starTake _ caps input caps₁ middle caps₂ rest hfirst hlt hstar _ ih =>
      cases hpattern
      cases rounds with
      | zero => omega
      | succ rounds =>
          have hnext := ih rfl hk rounds (by omega)
          have hstep := hbody (fun caps' rest =>
            if rest.length < input.length then
              repeatGreedy (fun k' caps' rest => body.matcher k' caps' rest) k rounds caps' rest
            else none) hfirst (by simpa [hlt] using hnext)
          simp only [repeatGreedy, Option.isSome_or, Bool.or_eq_true]
          exact Or.inl hstep
  | _ => cases hpattern

/-- Backtracking is exhaustive: an acceptable derivation makes the matcher succeed. -/
theorem matcher_complete (r : Regex α) (k : Captures α → List α → Option β)
    {caps caps' : Captures α} {input rest : List α} (hmatch : Matches r caps input caps' rest)
    (hk : (k caps' rest).isSome) : (r.matcher k caps input).isSome := by
  induction r generalizing k caps caps' input rest with
  | empty => cases hmatch; exact hk
  | cls accepts =>
      cases hmatch with
      | cls _ _ hx => simpa [matcher, hx] using hk
  | seq first second ihfirst ihsecond =>
      cases hmatch with
      | seq hfirst hsecond => exact ihfirst _ hfirst (ihsecond k hsecond hk)
  | opt body ih =>
      simp only [matcher, Option.isSome_or, Bool.or_eq_true]
      cases hmatch with
      | optSkip => exact Or.inr hk
      | optTake hbody hlt => exact Or.inl (ih _ hbody (by simpa [hlt] using hk))
  | star body ih =>
      exact isSome_repeatGreedy body k (fun k' {_ _ _ _} => ih k') rfl hmatch hk _ (Nat.le_refl _)
  | group index body ih =>
      cases hmatch with
      | group hbody => exact ih _ hbody hk
  | atEnd => cases hmatch; simpa [matcher] using hk

/-- A continuation that refuses every derivation makes the pattern fail. -/
theorem matcher_eq_none {r : Regex α} {k : Captures α → List α → Option β}
    {caps : Captures α} {input : List α}
    (h : ∀ caps' rest, Matches r caps input caps' rest → k caps' rest = none) :
    r.matcher k caps input = none := by
  rw [Option.eq_none_iff_forall_ne_some]
  intro result hrun
  obtain ⟨caps', rest, hmatch, hk⟩ := matcher_sound r k caps input result hrun
  rw [h caps' rest hmatch] at hk
  cases hk

/-- If some derivation is accepted and all accepted ones agree, the order in
which they are tried is irrelevant. -/
theorem matcher_eq_some {r : Regex α} {k : Captures α → List α → Option β}
    {caps caps' : Captures α} {input rest : List α} {b : β}
    (hmatch : Matches r caps input caps' rest) (hk : (k caps' rest).isSome)
    (hagree : ∀ caps' rest other, Matches r caps input caps' rest → k caps' rest = some other →
      other = b) :
    r.matcher k caps input = some b := by
  obtain ⟨other, hrun⟩ := Option.isSome_iff_exists.mp (matcher_complete r k hmatch hk)
  obtain ⟨caps₁, rest₁, hmatch₁, hk₁⟩ := matcher_sound r k caps input other hrun
  rw [hrun, hagree caps₁ rest₁ other hmatch₁ hk₁]

/-- A search succeeds when some end of the input begins with a match. -/
theorem isSome_search_iff {r : Regex α} {input : List α} :
    (r.search input).isSome = true ↔
      ∃ front back caps rest, input = front ++ back ∧ Matches r (fun _ => none) back caps rest := by
  rw [search, List.findSome?_isSome_iff]
  constructor
  · rintro ⟨back, hback, hrun⟩
    obtain ⟨front, hfront⟩ := (List.mem_tails _ _).mp hback
    obtain ⟨caps, hcaps⟩ := Option.isSome_iff_exists.mp hrun
    obtain ⟨caps', rest, hmatch, -⟩ := matcher_sound _ _ _ _ _ hcaps
    exact ⟨front, back, caps', rest, hfront.symm, hmatch⟩
  · rintro ⟨front, back, caps, rest, rfl, hmatch⟩
    exact ⟨back, (List.mem_tails _ _).mpr (List.suffix_append front back),
      matcher_complete _ _ hmatch rfl⟩

/-- The captures of a full match that can be made in one way only. -/
theorem fullMatch_eq_some {r : Regex α} {input : List α} {caps : Captures α}
    (hmatch : Matches r (fun _ => none) input caps [])
    (honly : ∀ other, Matches r (fun _ => none) input other [] → other = caps) :
    r.fullMatch input = some caps := by
  refine matcher_eq_some hmatch rfl ?_
  intro caps' rest other hother hk
  cases rest with
  | nil =>
      obtain rfl := Option.some.inj hk
      exact honly _ hother
  | cons => cases hk

theorem fullMatch_eq_none {r : Regex α} {input : List α}
    (h : ∀ caps, ¬Matches r (fun _ => none) input caps []) : r.fullMatch input = none := by
  apply matcher_eq_none
  intro caps rest hmatch
  cases rest with
  | nil => exact absurd hmatch (h caps)
  | cons => rfl

/-- Post-processing the result is part of the continuation. -/
theorem map_matcher {γ : Type v} (r : Regex α) (f : β → γ)
    (k : Captures α → List α → Option β) (caps : Captures α) (input : List α) :
    (r.matcher k caps input).map f =
      r.matcher (fun caps' rest => (k caps' rest).map f) caps input := by
  induction r generalizing k caps input with
  | empty => rfl
  | cls accepts =>
      cases input with
      | nil => rfl
      | cons x rest => simp only [matcher]; split <;> rfl
  | seq first second ihfirst ihsecond =>
      simp only [matcher, ihfirst, ihsecond]
  | opt body ih =>
      simp only [matcher, Option.map_or, ih, apply_ite (Option.map f), Option.map_none]
  | star body ih =>
      simp only [matcher]
      generalize input.length = rounds
      induction rounds generalizing caps input with
      | zero => rfl
      | succ rounds ihrounds =>
          simp only [repeatGreedy, Option.map_or, ih, apply_ite (Option.map f), Option.map_none,
            ihrounds]
  | group index body ih => simp only [matcher, ih]
  | atEnd => simp only [matcher]; split <;> rfl

/-! ## Repetition of one character class -/

private theorem repeatGreedy_cls_stable (accepts : α → Bool)
    (k : Captures α → List α → Option β) (caps : Captures α) (input : List α)
    (rounds : Nat) (hrounds : input.length ≤ rounds) :
    repeatGreedy (fun k' caps' rest => (Regex.cls accepts).matcher k' caps' rest)
        k rounds caps input =
      (Regex.star (.cls accepts)).matcher k caps input := by
  induction input generalizing rounds with
  | nil => cases rounds <;> simp [matcher, repeatGreedy]
  | cons x rest ih =>
      cases rounds with
      | zero => simp at hrounds
      | succ rounds =>
          have hle : rest.length ≤ rounds := by simpa using hrounds
          simp only [matcher, repeatGreedy, List.length_cons, Nat.lt_succ_self, ↓reduceIte]
          have hshort := ih rounds hle
          simp only [matcher] at hshort
          rw [hshort]

@[simp] theorem matcher_star_cls_nil (accepts : α → Bool)
    (k : Captures α → List α → Option β) (caps : Captures α) :
    (Regex.star (.cls accepts)).matcher k caps [] = k caps [] := rfl

/-- A class repeats greedily: one more character if it can, stopping here last. -/
theorem matcher_star_cls_cons (accepts : α → Bool) (k : Captures α → List α → Option β)
    (caps : Captures α) (x : α) (rest : List α) :
    (Regex.star (.cls accepts)).matcher k caps (x :: rest) =
      if accepts x then
        ((Regex.star (.cls accepts)).matcher k caps rest).or (k caps (x :: rest))
      else k caps (x :: rest) := by
  conv_lhs => simp only [matcher, repeatGreedy, List.length_cons, Nat.lt_succ_self, ↓reduceIte]
  split
  · rw [← repeatGreedy_cls_stable accepts k caps rest rest.length (Nat.le_refl _)]
    rfl
  · simp

/-! ## Derivations of composite patterns -/

theorem matches_seq_iff {first second : Regex α} {caps caps' : Captures α}
    {input rest : List α} :
    Matches (.seq first second) caps input caps' rest ↔
      ∃ caps₁ middle, Matches first caps input caps₁ middle ∧
        Matches second caps₁ middle caps' rest := by
  constructor
  · intro hmatch
    cases hmatch with
    | seq hfirst hsecond => exact ⟨_, _, hfirst, hsecond⟩
  · rintro ⟨caps₁, middle, hfirst, hsecond⟩
    exact .seq hfirst hsecond

theorem matches_cls_iff {accepts : α → Bool} {caps caps' : Captures α} {input rest : List α} :
    Matches (.cls accepts) caps input caps' rest ↔
      caps' = caps ∧ ∃ x, accepts x = true ∧ input = x :: rest := by
  constructor
  · intro hmatch
    cases hmatch with
    | cls _ _ hx => exact ⟨rfl, _, hx, rfl⟩
  · rintro ⟨rfl, x, hx, rfl⟩
    exact .cls _ _ hx

theorem matches_group_iff {index : Nat} {body : Regex α} {caps caps' : Captures α}
    {input rest : List α} :
    Matches (.group index body) caps input caps' rest ↔
      ∃ inner, Matches body caps input inner rest ∧
        caps' = Function.update inner index (some (input.take (input.length - rest.length))) := by
  constructor
  · intro hmatch
    cases hmatch with
    | group hbody => exact ⟨_, hbody, rfl⟩
  · rintro ⟨inner, hbody, rfl⟩
    exact .group hbody

theorem matches_atEnd_iff {caps caps' : Captures α} {input rest : List α} :
    Matches .atEnd caps input caps' rest ↔ caps' = caps ∧ input = [] ∧ rest = [] := by
  constructor
  · intro hmatch
    cases hmatch
    exact ⟨rfl, rfl, rfl⟩
  · rintro ⟨rfl, rfl, rfl⟩
    exact .atEnd _

/-- An optional class takes one of its characters or nothing. -/
theorem matches_opt_cls_iff {accepts : α → Bool} {caps caps' : Captures α}
    {input rest : List α} :
    Matches (.opt (.cls accepts)) caps input caps' rest ↔
      caps' = caps ∧ ∃ run : List α, run.length ≤ 1 ∧ (∀ x ∈ run, accepts x = true) ∧
        input = run ++ rest := by
  constructor
  · intro hmatch
    cases hmatch with
    | optSkip => exact ⟨rfl, [], by simp, by simp, rfl⟩
    | optTake hbody hlt =>
        obtain ⟨rfl, x, hx, rfl⟩ := matches_cls_iff.mp hbody
        exact ⟨rfl, [x], by simp, by simpa using hx, rfl⟩
  · rintro ⟨rfl, run, hlength, hrun, rfl⟩
    match run, hlength with
    | [], _ => exact .optSkip _ _ _
    | [x], _ => exact .optTake (.cls _ _ (hrun x List.mem_cons_self)) (by simp)

private theorem star_cls_split {pattern : Regex α} {accepts : α → Bool}
    {caps caps' : Captures α} {input rest : List α}
    (hpattern : pattern = .star (.cls accepts)) (hmatch : Matches pattern caps input caps' rest) :
    caps' = caps ∧ ∃ run : List α, (∀ x ∈ run, accepts x = true) ∧ input = run ++ rest := by
  induction hmatch with
  | starStop => exact ⟨rfl, [], by simp, rfl⟩
  | starTake hbody _ _ _ ih =>
      cases hpattern
      obtain ⟨rfl, x, hx, rfl⟩ := matches_cls_iff.mp hbody
      obtain ⟨rfl, run, hrun, rfl⟩ := ih rfl
      exact ⟨rfl, x :: run, by simpa [hx] using hrun, rfl⟩
  | _ => cases hpattern

/-- A repeated class consumes some front part made of its characters. -/
theorem matches_star_cls_iff {accepts : α → Bool} {caps caps' : Captures α}
    {input rest : List α} :
    Matches (.star (.cls accepts)) caps input caps' rest ↔
      caps' = caps ∧ ∃ run : List α, (∀ x ∈ run, accepts x = true) ∧ input = run ++ rest := by
  refine ⟨star_cls_split rfl, ?_⟩
  rintro ⟨rfl, run, hrun, rfl⟩
  induction run with
  | nil => exact .starStop _ _ _
  | cons x run ih =>
      have hx := hrun x List.mem_cons_self
      have htail := ih fun y hy => hrun y (List.mem_cons_of_mem x hy)
      exact .starTake (.cls _ _ hx) (by simp) htail

theorem matches_plus_cls_iff {accepts : α → Bool} {caps caps' : Captures α}
    {input rest : List α} :
    Matches (plus (.cls accepts)) caps input caps' rest ↔
      caps' = caps ∧ ∃ run : List α, run ≠ [] ∧ (∀ x ∈ run, accepts x = true) ∧
        input = run ++ rest := by
  simp only [plus, matches_seq_iff, matches_cls_iff, matches_star_cls_iff]
  constructor
  · rintro ⟨caps₁, middle, ⟨rfl, x, hx, rfl⟩, rfl, run, hrun, rfl⟩
    exact ⟨rfl, x :: run, by simp, by simpa [hx] using hrun, rfl⟩
  · rintro ⟨rfl, run, hne, hrun, rfl⟩
    cases run with
    | nil => exact absurd rfl hne
    | cons x run =>
        simp only [List.mem_cons, forall_eq_or_imp] at hrun
        exact ⟨_, run ++ rest, ⟨rfl, x, hrun.1, rfl⟩, rfl, run, hrun.2, rfl⟩

end Regex

end Vorze
