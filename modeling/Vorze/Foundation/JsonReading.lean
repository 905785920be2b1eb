import Vorze.Foundation.Json

/-! # What the parser reads

Rules for reading a text from its parts: spaces, the characters of a string,
digits, the items of a list. The other way round, `chars_sound` says what a string
can have been read from.
-/

namespace Vorze.Json

/-! ## Spaces -/

theorem skipSpaces_append {spaces : Bytes} (h : ∀ b ∈ spaces, isSpace b = true) (input : Bytes) :
    skipSpaces (spaces ++ input) = skipSpaces input :=
  List.dropWhile_append_of_pos h

@[simp] theorem skipSpaces_cons {b : UInt8} (h : isSpace b = false) (rest : Bytes) :
    skipSpaces (b :: rest) = b :: rest :=
  List.dropWhile_cons_of_neg (by simp [h])

theorem skipSpaces_of_head? {input : Bytes} {b : UInt8}
    (h : (skipSpaces input).head? = some b) (more : Bytes) :
    ∃ tail, skipSpaces (input ++ more) = b :: tail := by
  obtain ⟨tail, htail⟩ := List.head?_eq_some_iff.mp h
  refine ⟨tail ++ more, ?_⟩
  rw [skipSpaces] at htail ⊢
  rw [List.dropWhile_append, htail]
  rfl

/-- Spaces before a value do not matter. -/
theorem readValue_append {spaces : Bytes} (h : ∀ b ∈ spaces, isSpace b = true) (bound : Nat)
    (input : Bytes) : readValue bound (spaces ++ input) = readValue bound input := by
  cases bound with
  | zero => rfl
  | succ bound => simp only [readValue, skipSpaces_append h]

theorem readMember_append {spaces : Bytes} (h : ∀ b ∈ spaces, isSpace b = true)
    (value : Bytes → Option (Json × Bytes)) (input : Bytes) :
    readMember value (spaces ++ input) = readMember value input := by
  simp only [readMember, skipSpaces_append h]

/-! ## Characters -/

/-- The text is one character of a string. -/
def IsChar (written : Bytes) (b : UInt8) : Prop :=
  written ≠ [] ∧ ∀ bound input, chars (bound + 1) (written ++ input) =
    (chars bound input).map fun (s, rest) => (b :: s, rest)

theorem isChar_plain {b : UInt8} (h : isPlain b = true) : IsChar [b] b := by
  refine ⟨by simp, ?_⟩
  intro bound input
  have hplain := h
  simp only [isPlain, Bool.and_eq_true, bne_iff_ne, ne_eq] at h
  simp only [List.cons_append, List.nil_append, chars, if_neg h.1.1, if_neg h.1.2, hplain,
    ↓reduceIte]
  cases chars bound input <;> rfl

theorem isChar_escape {written : Bytes} {b : UInt8}
    (h : ∀ input, escape (written ++ input) = some ([b], input)) :
    IsChar (ch '\\' :: written) b := by
  refine ⟨by simp, ?_⟩
  intro bound input
  have hquote : ch '\\' ≠ ch '"' := by decide
  simp only [List.cons_append, chars, if_neg hquote, ↓reduceIte, h]
  cases hread : chars bound input <;> simp [hread]

theorem isChar_unescape {letter b : UInt8} (h : unescape letter = some b) :
    IsChar [ch '\\', letter] b := by
  apply isChar_escape
  intro input
  have hletter : letter ≠ ch 'u' := by
    rintro rfl
    have hnone : unescape (ch 'u') = none := by decide
    rw [hnone] at h
    cases h
  simp [escape, if_neg hletter, h]

theorem isChar_codeUnit {a b c d : UInt8} {n : Nat} (h : codeUnit a b c d = some n)
    (hn : n < 0x80) : IsChar [ch '\\', ch 'u', a, b, c, d] n.toUInt8 := by
  apply isChar_escape
  intro input
  have hlow : ¬(0xDC00 ≤ n ∧ n < 0xE000) := by omega
  have hhigh : ¬(0xD800 ≤ n ∧ n < 0xDC00) := by omega
  simp [escape, h, hlow, hhigh, utf8, hn]

/-- The text is read as the string, whatever comes after it. -/
def IsString (written s : Bytes) : Prop :=
  ∀ rest, readString (written ++ ch '"' :: rest) = some (s, rest)

theorem chars_flatMap {write : UInt8 → Bytes} {s : Bytes} (h : ∀ b ∈ s, IsChar (write b) b)
    {bound : Nat} (hbound : s.length < bound) (rest : Bytes) :
    chars bound (s.flatMap write ++ ch '"' :: rest) = some (s, rest) := by
  induction s generalizing bound with
  | nil =>
      cases bound with
      | zero => simp at hbound
      | succ bound => rfl
  | cons b s ih =>
      cases bound with
      | zero => simp at hbound
      | succ bound =>
          obtain ⟨-, hread⟩ := h b List.mem_cons_self
          have hs := ih (fun b hb => h b (List.mem_cons_of_mem _ hb)) (by simpa using hbound)
          rw [List.flatMap_cons, List.append_assoc, hread, hs]
          rfl

/-- Characters written one after another are read as the string of them. -/
theorem isString_flatMap {write : UInt8 → Bytes} {s : Bytes}
    (h : ∀ b ∈ s, IsChar (write b) b) : IsString (s.flatMap write) s := by
  have hlength : s.length ≤ (s.flatMap write).length := by
    induction s with
    | nil => exact Nat.le_refl _
    | cons b s ih =>
        have hb := List.length_pos_iff.mpr (h b List.mem_cons_self).1
        have hs := ih fun b hb => h b (List.mem_cons_of_mem _ hb)
        rw [List.flatMap_cons, List.length_append, List.length_cons]
        omega
  intro rest
  apply chars_flatMap h
  rw [List.length_append]
  omega

theorem isString_plain {s : Bytes} (h : ∀ b ∈ s, isPlain b = true) : IsString s s := by
  have hstring : IsString (s.flatMap fun b => [b]) s :=
    isString_flatMap fun b hb => isChar_plain (h b hb)
  rwa [List.flatMap_singleton'] at hstring

/-! ## What a string can be read from -/

theorem length_utf8_le (n : Nat) : (utf8 n).length ≤ 4 := by
  unfold utf8
  split
  · simp
  split
  · simp
  split <;> simp

/-- An escape is not shorter than what it stands for. -/
theorem escape_sound {input escaped rest : Bytes} (h : escape input = some (escaped, rest)) :
    ∃ written, input = written ++ rest ∧ escaped.length ≤ written.length := by
  unfold escape at h
  split at h
  next => cases h
  next letter rest' =>
    split at h
    next hletter =>
      split at h
      next a b c d after =>
        obtain ⟨unit, -, h⟩ := Option.bind_eq_some_iff.mp h
        split at h
        next => cases h
        split at h
        next =>
          split at h
          next backslash letter' a' b' c' d' last _ =>
            obtain ⟨low, -, h⟩ := Option.bind_eq_some_iff.mp h
            split at h
            next =>
              obtain ⟨rfl, rfl⟩ := Prod.mk.inj (Option.some.inj h)
              exact ⟨[letter, a, b, c, d, backslash, letter', a', b', c', d'], rfl,
                Nat.le_trans (length_utf8_le _) (by simp)⟩
            next => cases h
          next => cases h
        next =>
          obtain ⟨rfl, rfl⟩ := Prod.mk.inj (Option.some.inj h)
          exact ⟨[letter, a, b, c, d], rfl, Nat.le_trans (length_utf8_le _) (by simp)⟩
      next => cases h
    next =>
      obtain ⟨b, -, hb⟩ := Option.map_eq_some_iff.mp h
      obtain ⟨rfl, rfl⟩ := Prod.mk.inj hb
      exact ⟨[letter], rfl, Nat.le_refl _⟩

/-- A string ends with its quote; it is shorter than what it is read from unless
all its characters stand for themselves. -/
theorem chars_sound {bound : Nat} {input s rest : Bytes} (h : chars bound input = some (s, rest)) :
    ∃ written, input = written ++ ch '"' :: rest ∧
      (written = s ∧ (∀ b ∈ s, isPlain b = true) ∨ s.length < written.length) := by
  induction bound generalizing input s rest with
  | zero => cases h
  | succ bound ih =>
      cases input with
      | nil => cases h
      | cons b input =>
          simp only [chars] at h
          split at h
          next hquote =>
            obtain ⟨rfl, rfl⟩ := Prod.mk.inj (Option.some.inj h)
            exact ⟨[], by rw [hquote]; rfl, Or.inl ⟨rfl, by simp⟩⟩
          split at h
          next =>
            obtain ⟨⟨escaped, after⟩, hescape, h⟩ := Option.bind_eq_some_iff.mp h
            obtain ⟨⟨s', rest'⟩, hs, h⟩ := Option.bind_eq_some_iff.mp h
            obtain ⟨rfl, rfl⟩ := Prod.mk.inj (Option.some.inj h)
            obtain ⟨front, rfl, hfront⟩ := escape_sound hescape
            obtain ⟨written, rfl, hwritten⟩ := ih hs
            have hle : s'.length ≤ written.length := by
              rcases hwritten with ⟨rfl, -⟩ | hlt
              · exact Nat.le_refl _
              · exact Nat.le_of_lt hlt
            refine ⟨b :: (front ++ written), by simp, Or.inr ?_⟩
            simp only [List.length_append, List.length_cons]
            omega
          split at h
          next hplain =>
            obtain ⟨⟨s', rest'⟩, hs, h⟩ := Option.bind_eq_some_iff.mp h
            obtain ⟨rfl, rfl⟩ := Prod.mk.inj (Option.some.inj h)
            obtain ⟨written, rfl, hwritten⟩ := ih hs
            refine ⟨b :: written, rfl, ?_⟩
            rcases hwritten with ⟨rfl, hall⟩ | hlt
            · exact Or.inl ⟨rfl, List.forall_mem_cons.mpr ⟨hplain, hall⟩⟩
            · exact Or.inr (Nat.succ_lt_succ hlt)
          next => cases h

/-! ## Digits -/

/-- A character that does not go on with a number of digits. -/
def endsDigits (b : UInt8) : Bool :=
  !isDigit b && b != ch '.' && b != ch 'e' && b != ch 'E'

/-- Digits without a leading zero are a number. -/
theorem readNumber_digits {s : Bytes} (hne : s ≠ []) (hdigits : ∀ b ∈ s, isDigit b = true)
    (hzero : s.head? = some (ch '0') → s = [ch '0']) {b : UInt8} (hb : endsDigits b = true)
    (rest : Bytes) : readNumber (s ++ b :: rest) = some (.number s, b :: rest) := by
  simp only [endsDigits, Bool.and_eq_true, Bool.not_eq_true', bne_iff_ne, ne_eq] at hb
  have hinteger : integerPart (s ++ b :: rest) = some (b :: rest) := by
    cases s with
    | nil => exact absurd rfl hne
    | cons d s =>
        have hd := hdigits d List.mem_cons_self
        have hminus : d ≠ ch '-' := by
          rintro rfl
          exact absurd hd (by decide)
        have hdrop : (d :: s ++ b :: rest).dropWhile isDigit = b :: rest := by
          rw [List.dropWhile_append_of_pos hdigits, List.dropWhile_cons_of_neg (by simp [hb.1.1.1])]
        by_cases hd0 : d = ch '0'
        · obtain ⟨-, rfl⟩ := List.cons.inj (hzero (by rw [hd0]; rfl))
          subst hd0
          simp [integerPart, hminus]
        · simp only [integerPart, List.cons_append, List.head?_cons, Option.some.injEq,
            if_neg hminus, if_neg hd0, digits, Option.any_some, hd, ↓reduceIte]
          rw [← List.cons_append, hdrop]
  have hlength : (s ++ b :: rest).length - (b :: rest).length = s.length := by simp
  have hfraction : fraction (b :: rest) = some (b :: rest) := by
    simp [fraction, hb.1.1.2]
  have hexponent : exponent (b :: rest) = some (b :: rest) := by
    simp [exponent, hb.1.2, hb.2]
  simp [readNumber, hinteger, hfraction, hexponent]

theorem keyword_eq_none {c d : UInt8} (h : d ≠ c) (word : Bytes) (json : Json) (input : Bytes) :
    keyword (c :: word) json (d :: input) = none := by
  simp [keyword, h.symm]

theorem readValue_digits {s : Bytes} (hne : s ≠ []) (hdigits : ∀ b ∈ s, isDigit b = true)
    (hzero : s.head? = some (ch '0') → s = [ch '0']) {b : UInt8} (hb : endsDigits b = true)
    (bound : Nat) (rest : Bytes) :
    readValue (bound + 1) (s ++ b :: rest) = some (.number s, b :: rest) := by
  have hnumber := readNumber_digits hne hdigits hzero hb rest
  cases s with
  | nil => exact absurd rfl hne
  | cons d s =>
      have hd : ∀ c, isDigit c = false → d ≠ c := by
        rintro c hc rfl
        rw [hdigits d List.mem_cons_self] at hc
        cases hc
      have hspace : isSpace d = false := by
        simp [isSpace, hd 0x20 rfl, hd 0x09 rfl, hd 0x0A rfl, hd 0x0D rfl]
      rw [List.cons_append, readValue, skipSpaces_cons hspace]
      simp only [if_neg (hd (ch '"') rfl), if_neg (hd (ch '[') rfl), if_neg (hd (ch '\x7b') rfl)]
      rw [show text "null" = ch 'n' :: text "ull" from rfl,
        show text "true" = ch 't' :: text "rue" from rfl,
        show text "false" = ch 'f' :: text "alse" from rfl, keyword_eq_none (hd _ rfl),
        keyword_eq_none (hd _ rfl), keyword_eq_none (hd _ rfl), Option.none_or, Option.none_or,
        Option.none_or]
      exact hnumber

theorem isDigit_of_mem_decimal {n : Nat} {b : UInt8} (h : b ∈ decimal n) : isDigit b = true := by
  obtain ⟨c, hc, rfl⟩ := List.mem_map.mp h
  have hdigit := Nat.isDigit_of_mem_toDigits (by decide) (by decide) hc
  have hrange : 48 ≤ c.toNat ∧ c.toNat ≤ 57 := by
    simpa [Char.isDigit, UInt32.le_iff_toNat_le] using hdigit
  have hall : ∀ n < 58, 48 ≤ n → isDigit n.toUInt8 = true := by decide
  exact hall c.toNat (by omega) hrange.1

theorem head?_decimal_ne {n : Nat} (hn : 0 < n) : (decimal n).head? ≠ some (ch '0') := by
  induction n using Nat.strongRecOn with
  | ind n ih =>
      by_cases hsmall : n < 10
      · have hall : ∀ n < 10, 0 < n → (decimal n).head? ≠ some (ch '0') := by decide
        exact hall n hsmall hn
      · have hsplit : decimal n = decimal (n / 10) ++ [ch (n % 10).digitChar] := by
          simp [decimal, Nat.toDigits_of_base_le (by decide) (Nat.le_of_not_lt hsmall)]
        have hne : decimal (n / 10) ≠ [] := by
          simp [decimal]
        rw [hsplit, List.head?_append_of_ne_nil _ hne]
        exact ih (n / 10) (by omega) (by omega)

/-- An unsigned integer is read as the number it is. -/
theorem readValue_decimal (n : Nat) {b : UInt8} (hb : endsDigits b = true) (bound : Nat)
    (rest : Bytes) :
    readValue (bound + 1) (decimal n ++ b :: rest) = some (.number (decimal n), b :: rest) := by
  have hne : decimal n ≠ [] := by
    simp [decimal]
  apply readValue_digits hne (fun b hb => isDigit_of_mem_decimal hb) _ hb
  intro hhead
  cases n with
  | zero => rfl
  | succ n => exact absurd hhead (head?_decimal_ne (Nat.succ_pos n))

/-! ## Items -/

/-- What may follow an item of a list. -/
def Follows (close b : UInt8) : Prop := b = ch ',' ∨ isSpace b = true ∨ b = close

/-- The text is an item for the value wherever an item may stand. -/
def IsItem {α : Type} (item : Bytes → Option (α × Bytes)) (close : UInt8) (written : Bytes)
    (x : α) : Prop :=
  (∃ first, (skipSpaces written).head? = some first ∧ first ≠ close) ∧
    ∀ b rest, Follows close b → item (written ++ b :: rest) = some (x, b :: rest)

section Items

variable {α : Type} {item : Bytes → Option (α × Bytes)} {close : UInt8}

theorem IsItem.read {written spaces : Bytes} {x : α} {c : UInt8}
    (h : IsItem item close written x) (hspaces : ∀ b ∈ spaces, isSpace b = true)
    (hc : c = ch ',' ∨ c = close) (rest : Bytes) :
    item (written ++ (spaces ++ c :: rest)) = some (x, spaces ++ c :: rest) := by
  cases spaces with
  | nil => exact h.2 c rest (hc.imp_right Or.inr)
  | cons b spaces =>
      rw [List.cons_append]
      exact h.2 b _ (Or.inr (Or.inl (hspaces b List.mem_cons_self)))

theorem items_last {input rest tail : Bytes} {x : α} (hread : item input = some (x, rest))
    (hskip : skipSpaces rest = close :: tail) (bound : Nat) :
    items item close (bound + 1) input = some ([x], tail) := by
  simp [items, hread, hskip]

theorem items_more (hcomma : close ≠ ch ',') {input rest tail last : Bytes} {x : α} {xs : List α}
    {bound : Nat} (hread : item input = some (x, rest)) (hskip : skipSpaces rest = ch ',' :: tail)
    (hmore : items item close bound tail = some (xs, last)) :
    items item close (bound + 1) input = some (x :: xs, last) := by
  simp [items, hread, hskip, hmore, hcomma.symm]

/-- After the first item comes a comma or the end of the list. -/
theorem exists_head_items {bound : Nat} {input last : Bytes} {xs : List α}
    (h : items item close bound input = some (xs, last)) :
    ∃ x rest b tail more, item input = some (x, rest) ∧ skipSpaces rest = b :: tail ∧
      (b = close ∨ b = ch ',') ∧ xs = x :: more := by
  cases bound with
  | zero => cases h
  | succ bound =>
      obtain ⟨⟨x, rest⟩, hitem, h⟩ := Option.bind_eq_some_iff.mp h
      dsimp only at h
      split at h
      next => cases h
      next b tail hskip =>
        refine ⟨x, rest, b, tail, ?_⟩
        split at h
        next hclose =>
          obtain ⟨rfl, -⟩ := Prod.mk.inj (Option.some.inj h)
          exact ⟨[], hitem, hskip, Or.inl hclose, rfl⟩
        split at h
        next hcomma =>
          obtain ⟨⟨more, rest'⟩, -, h⟩ := Option.bind_eq_some_iff.mp h
          obtain ⟨rfl, -⟩ := Prod.mk.inj (Option.some.inj h)
          exact ⟨more, hitem, hskip, Or.inr hcomma, rfl⟩
        next => cases h

/-- Items with commas between them are read one after another. -/
theorem items_intercalate (hcomma : close ≠ ch ',') (hspace : isSpace close = false)
    {written : List (Bytes × α)} (hne : written ≠ [])
    (hitem : ∀ w ∈ written, IsItem item close w.1 w.2) {spaces : Bytes}
    (hspaces : ∀ b ∈ spaces, isSpace b = true) (rest : Bytes) {bound : Nat}
    (hbound : written.length ≤ bound) :
    items item close bound
        ([ch ','].intercalate (written.map Prod.fst) ++ spaces ++ close :: rest) =
      some (written.map Prod.snd, rest) := by
  induction written generalizing bound with
  | nil => exact absurd rfl hne
  | cons w written ih =>
      have hw := hitem w List.mem_cons_self
      cases bound with
      | zero => simp at hbound
      | succ bound =>
          cases written with
          | nil =>
              have hread := hw.read hspaces (Or.inr rfl) rest
              have hskip : skipSpaces (spaces ++ close :: rest) = close :: rest := by
                rw [skipSpaces_append hspaces, skipSpaces_cons hspace]
              simpa using items_last hread hskip bound
          | cons next written =>
              have hmore := ih (by simp) (fun w hw => hitem w (List.mem_cons_of_mem _ hw))
                (by simpa using hbound)
              have hread := hw.2 (ch ',')
                ([ch ','].intercalate ((next :: written).map Prod.fst) ++ spaces ++ close :: rest)
                (Or.inl rfl)
              have hitems := items_more hcomma hread (skipSpaces_cons rfl _) hmore
              rw [List.map_cons, List.intercalate_cons_of_ne_nil (by simp)]
              simp only [List.append_assoc, List.cons_append, List.nil_append] at hitems ⊢
              exact hitems

/-- A list of items in its brackets. -/
theorem listOf_intercalate (hcomma : close ≠ ch ',') (hspace : isSpace close = false)
    {written : List (Bytes × α)} (hitem : ∀ w ∈ written, IsItem item close w.1 w.2)
    {spaces : Bytes} (hspaces : ∀ b ∈ spaces, isSpace b = true) (rest : Bytes) {bound : Nat}
    (hbound : written.length ≤ bound) :
    listOf item close bound
        ([ch ','].intercalate (written.map Prod.fst) ++ spaces ++ close :: rest) =
      some (written.map Prod.snd, rest) := by
  cases written with
  | nil => simp [listOf, skipSpaces_append hspaces, skipSpaces_cons hspace]
  | cons w written =>
      have hitems := items_intercalate hcomma hspace (List.cons_ne_nil w written) hitem hspaces rest
        hbound
      obtain ⟨⟨first, hfirst, hne⟩, -⟩ := hitem w List.mem_cons_self
      have hstart : ∃ more, [ch ','].intercalate ((w :: written).map Prod.fst) ++ spaces ++
          close :: rest = w.1 ++ more := by
        cases written <;> simp
      obtain ⟨more, hmore⟩ := hstart
      obtain ⟨tail, htail⟩ := skipSpaces_of_head? hfirst more
      rw [listOf, hmore, htail]
      simp only [if_neg hne]
      rw [← hmore, hitems]

end Items

/-! ## Values -/

theorem readValue_quote (bound : Nat) (input : Bytes) :
    readValue (bound + 1) (ch '"' :: input) =
      (readString input).map fun (s, rest) => (.string s, rest) := by
  rw [readValue, skipSpaces_cons rfl]
  simp only [↓reduceIte]

theorem readValue_bracket (bound : Nat) (input : Bytes) :
    readValue (bound + 1) (ch '[' :: input) =
      (listOf (readValue bound) (ch ']') bound input).map fun (xs, rest) => (.array xs, rest) := by
  rw [readValue, skipSpaces_cons rfl]
  simp only [if_neg (show ch '[' ≠ ch '"' by decide), ↓reduceIte]

theorem readValue_brace (bound : Nat) (input : Bytes) :
    readValue (bound + 1) (ch '\x7b' :: input) =
      (listOf (readMember (readValue bound)) (ch '\x7d') bound input).map fun (ms, rest) =>
        (.object ms, rest) := by
  rw [readValue, skipSpaces_cons rfl]
  simp only [if_neg (show ch '\x7b' ≠ ch '"' by decide),
    if_neg (show ch '\x7b' ≠ ch '[' by decide), ↓reduceIte]

theorem readValue_string {written s : Bytes} (h : IsString written s) (bound : Nat)
    (rest : Bytes) :
    readValue (bound + 1) ([ch '"'] ++ written ++ [ch '"'] ++ rest) = some (.string s, rest) := by
  have hread := h rest
  simp only [List.append_assoc, List.cons_append, List.nil_append] at hread ⊢
  rw [readValue_quote, hread]
  rfl

/-- After its key, a member is read as its value is. -/
theorem readMember_eq {written key : Bytes} (hkey : IsString written key)
    (value : Bytes → Option (Json × Bytes)) (input : Bytes) :
    readMember value ([ch '"'] ++ written ++ [ch '"', ch ':'] ++ input) =
      (value input).map fun (json, rest) => ((key, json), rest) := by
  have hread := hkey (ch ':' :: input)
  simp only [List.append_assoc, List.cons_append, List.nil_append]
  simp only [readMember, skipSpaces_cons (b := ch '"') rfl, ↓reduceIte, hread,
    Option.bind_eq_bind, Option.bind_some, skipSpaces_cons (b := ch ':') rfl]
  cases hvalue : value input <;> simp

/-- A member is an item of an object. -/
theorem isItem_readMember {value : Bytes → Option (Json × Bytes)}
    {spaces written key input : Bytes} {json : Json}
    (hspaces : ∀ b ∈ spaces, isSpace b = true) (hkey : IsString written key)
    (hvalue : ∀ b rest, Follows (ch '\x7d') b →
      value (input ++ b :: rest) = some (json, b :: rest)) :
    IsItem (readMember value) (ch '\x7d')
      (spaces ++ ([ch '"'] ++ written ++ [ch '"', ch ':'] ++ input)) (key, json) := by
  constructor
  · refine ⟨ch '"', ?_, by decide⟩
    rw [skipSpaces_append hspaces]
    rfl
  · intro b rest hb
    have hmember := readMember_eq hkey value (input ++ b :: rest)
    rw [hvalue b rest hb, Option.map_some] at hmember
    rw [List.append_assoc, readMember_append hspaces]
    simpa only [List.append_assoc] using hmember

end Vorze.Json
