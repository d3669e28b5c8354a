import Mathlib
import SealedStream.Text.Json.Reader

/-!
# Written documents are read back

The reader gives back what the writer wrote, for documents of texts and whole
numbers that fit 64 bits, nested no deeper than the reader goes. It needs no
more fuel than there are characters.
-/

namespace SealedStream.Text.Json

-- ----------------------------------------------------------------------------
-- Numbers
-- ----------------------------------------------------------------------------

variable {rest : List Char}

/-- What stands behind a value in a written document. -/
inductive Ends : List Char → Prop
  | nil : Ends []
  | comma (rest : List Char) : Ends (',' :: rest)
  | newline (rest : List Char) : Ends ('\n' :: rest)

theorem isSome_digitValue? (c : Char) : (Decimal.digitValue? c).isSome = c.isDigit := by
  have hdigit : c.isDigit = decide ('0' ≤ c ∧ c ≤ '9') := by
    rw [Char.isDigit, Bool.decide_and]
    rfl
  rw [Decimal.digitValue?, hdigit]
  split <;> simp [*]

theorem ofDigits?_toDigits (n : Nat) : Decimal.ofDigits? (Nat.toDigits 10 n) = some n := by
  have hfold (digits : List Char) (value : Nat) (h : ∀ c ∈ digits, c.isDigit) :
      digits.foldlM (fun value c => (Decimal.digitValue? c).map (10 * value + ·)) value =
        some (Nat.ofDigitChars 10 digits value) := by
    induction digits generalizing value with
    | nil => rfl
    | cons c digits ih =>
      have hc : Decimal.digitValue? c = some (c.toNat - '0'.toNat) := by
        have := (isSome_digitValue? c).trans (h c List.mem_cons_self)
        rw [Decimal.digitValue?] at this ⊢
        split at this
        · next hc => rw [if_pos hc]
        · cases this
      rw [List.foldlM_cons, hc, Nat.ofDigitChars_cons]
      exact ih _ fun c hc => h c (List.mem_cons_of_mem _ hc)
  rw [Decimal.ofDigits?, if_neg (by simp [Nat.toDigits_ne_nil]),
    hfold _ _ fun c hc => Nat.isDigit_of_mem_toDigits (by decide) (by decide) hc,
    Nat.ofDigitChars_ten_toDigits]

theorem head?_toDigits {n : Nat} (h : 0 < n) : (Nat.toDigits 10 n).head? ≠ some '0' := by
  induction n using Nat.strongRecOn with
  | ind n ih =>
    rw [Nat.toDigits_eq_if (by decide)]
    split
    · next hlt =>
      have hdigit : ∀ n < 10, 0 < n → n.digitChar ≠ '0' := by decide
      simpa using hdigit n hlt h
    · have := ih (n / 10) (by omega) (by omega)
      rwa [List.head?_append_of_ne_nil _ Nat.toDigits_ne_nil]

theorem digitsOf_toDigits (n : Nat) (h : Ends rest) :
    digitsOf (Nat.toDigits 10 n ++ rest) = (Nat.toDigits 10 n, rest) := by
  have hall : ∀ c ∈ Nat.toDigits 10 n, (Decimal.digitValue? c).isSome = true := fun c hc => by
    rw [isSome_digitValue?, Nat.isDigit_of_mem_toDigits (by decide) (by decide) hc]
  rw [digitsOf, List.span_eq_takeWhile_dropWhile, List.takeWhile_append_of_pos hall,
    List.dropWhile_append_of_pos hall]
  cases h <;> simp [isSome_digitValue?]

theorem wholePart?_toDigits (n : Nat) (h : Ends rest) :
    wholePart? (Nat.toDigits 10 n ++ rest) = some (Nat.toDigits 10 n, rest) := by
  rw [wholePart?, digitsOf_toDigits n h]
  split
  · next heq => exact absurd (Prod.mk.inj heq).1 Nat.toDigits_ne_nil
  · next heq =>
    obtain ⟨hdigits, -⟩ := Prod.mk.inj heq
    by_cases hn : n = 0
    · subst hn
      rw [Nat.toDigits_zero] at hdigits
      cases hdigits
    · have := head?_toDigits (Nat.pos_of_ne_zero hn)
      rw [hdigits] at this
      exact absurd rfl this
  · rfl

theorem fraction?_ends (h : Ends rest) : fraction? rest = some ([], rest) := by
  cases h <;> rfl

theorem exponent?_ends (h : Ends rest) : exponent? rest = some (none, rest) := by
  cases h <;> rfl

theorem readNumber?_natural {n : Nat} (hn : n < 2 ^ 64) (h : Ends rest) :
    readNumber? (Nat.toDigits 10 n ++ rest) = some (.integer n, rest) := by
  rw [readNumber?]
  · have hsmall : ¬ 18446744073709551616 ≤ n := by omega
    simp [wholePart?_toDigits n h, fraction?_ends h, exponent?_ends h, ofDigits?_toDigits,
      UInt64.size, hsmall]
  · intro after hsign
    have hdigit (c : Char) (hc : c ∈ Nat.toDigits 10 n) : c.isDigit :=
      Nat.isDigit_of_mem_toDigits (by decide) (by decide) hc
    cases hdigits : Nat.toDigits 10 n with
    | nil => exact Nat.toDigits_ne_nil hdigits
    | cons c digits =>
      rw [hdigits, List.cons_append] at hsign
      have := hdigit c (hdigits ▸ List.mem_cons_self)
      rw [(List.cons.inj hsign).1] at this
      cases this

theorem readNumber?_negative {n : Nat} (hpos : 0 < n) (hn : n ≤ 2 ^ 63) (h : Ends rest) :
    readNumber? ('-' :: Nat.toDigits 10 n ++ rest) = some (.integer (-n), rest) := by
  have hsmall : ¬ 9223372036854775808 < n := by omega
  rw [List.cons_append, readNumber?]
  simp [wholePart?_toDigits n h, fraction?_ends h, exponent?_ends h, ofDigits?_toDigits, hpos,
    hsmall]

theorem readNumber?_toString {value : Int} (hlow : -2 ^ 63 ≤ value) (hhigh : value < 2 ^ 64)
    (h : Ends rest) :
    readNumber? ((toString value).toList ++ rest) = some (.integer value, rest) := by
  rw [Int.toString_eq_repr, Int.repr_eq_if]
  split
  · next hvalue =>
    rw [Nat.toList_repr, readNumber?_natural (by omega) h, Int.toNat_of_nonneg hvalue]
  · next hvalue =>
    have hneg : -((-value).toNat : Int) = value := by omega
    rw [String.toList_append, Nat.toList_repr]
    have := readNumber?_negative (n := (-value).toNat) (by omega) (by omega) h
    rwa [hneg] at this

-- ----------------------------------------------------------------------------
-- Texts
-- ----------------------------------------------------------------------------

/-- The letters that the writer puts behind a backslash, and what they stand for. -/
def shortEscapes : List (Char × Char) :=
  [('"', '"'), ('\\', '\\'), ('b', '\x08'), ('t', '\t'), ('n', '\n'), ('f', '\x0c'), ('r', '\r')]

theorem stringRest?_short {letter c : Char} (h : (letter, c) ∈ shortEscapes) (text : List Char) :
    stringRest? ('\\' :: letter :: text) = (stringRest? text).map fun p => (c :: p.1, p.2) := by
  simp only [shortEscapes, List.mem_cons, Prod.mk.injEq, List.not_mem_nil, or_false] at h
  rcases h with h | h | h | h | h | h | h
  all_goals
    obtain ⟨rfl, rfl⟩ := h
    rw [stringRest?]
    · cases stringRest? text <;> rfl
    · simp

theorem hexUnit?_hexDigit : ∀ n < 0x20,
    hexUnit? '0' '0' (hexDigit (n / 16)) (hexDigit (n % 16)) = some n := by decide

theorem stringRest?_control {c : Char} (h : c.toNat < 0x20) (text : List Char) :
    stringRest? ('\\' :: 'u' :: '0' :: '0' :: hexDigit (c.toNat / 16) :: hexDigit (c.toNat % 16) ::
      text) = (stringRest? text).map fun p => (c :: p.1, p.2) := by
  have hlead : isLeadUnit c.toNat = false := by
    simp only [isLeadUnit, Bool.and_eq_false_iff, decide_eq_false_iff_not]
    omega
  have htrail : isTrailUnit c.toNat = false := by
    simp only [isTrailUnit, Bool.and_eq_false_iff, decide_eq_false_iff_not]
    omega
  simp only [stringRest?, hexUnit?_hexDigit _ h, Option.bind_eq_bind, Option.bind_some, hlead,
    htrail, Bool.false_eq_true, if_false, Char.ofNat_toNat]
  cases stringRest? text <;> rfl

theorem stringRest?_plain {c : Char} (hquote : c ≠ '"') (hbackslash : c ≠ '\\')
    (h : 0x20 ≤ c.toNat) (text : List Char) :
    stringRest? (c :: text) = (stringRest? text).map fun p => (c :: p.1, p.2) := by
  rw [stringRest?, if_neg (by simp [hbackslash]; omega)]
  · cases stringRest? text <;> rfl
  all_goals simp_all

theorem stringRest?_escaped (c : Char) (text : List Char) :
    stringRest? (escaped c ++ text) = (stringRest? text).map fun p => (c :: p.1, p.2) := by
  have hpoint {n : Nat} (h : c.toNat = n) : c = Char.ofNat n := by rw [← h, Char.ofNat_toNat]
  rw [escaped]
  split
  · next hc => exact stringRest?_short (by simp [shortEscapes, hc]) text
  split
  · next hc => exact stringRest?_short (by simp [shortEscapes, hc]) text
  split
  · next hc => exact stringRest?_short (by rw [hpoint hc]; decide) text
  split
  · next hc => exact stringRest?_short (by rw [hpoint hc]; decide) text
  split
  · next hc => exact stringRest?_short (by rw [hpoint hc]; decide) text
  split
  · next hc => exact stringRest?_short (by rw [hpoint hc]; decide) text
  split
  · next hc => exact stringRest?_short (by rw [hpoint hc]; decide) text
  split
  · next hc => exact stringRest?_control hc text
  · next hquote hbackslash _ _ _ _ _ hc =>
    exact stringRest?_plain hquote hbackslash (Nat.not_lt.mp hc) text

theorem stringRest?_chars (chars : List Char) (rest : List Char) :
    stringRest? (chars.flatMap escaped ++ '"' :: rest) = some (chars, rest) := by
  induction chars with
  | nil => rw [List.flatMap_nil, List.nil_append, stringRest?]
  | cons c chars ih =>
    rw [List.flatMap_cons, List.append_assoc, stringRest?_escaped, ih]
    rfl

-- ----------------------------------------------------------------------------
-- Values
-- ----------------------------------------------------------------------------

/-- A value of texts and whole numbers, nested so many levels at most. -/
inductive Plain : Nat → Json → Prop
  | null (levels : Nat) : Plain levels .null
  | bool (levels : Nat) (value : Bool) : Plain levels (.bool value)
  | integer (levels : Nat) (value : Int) :
      -2 ^ 63 ≤ value → value < 2 ^ 64 → Plain levels (.integer value)
  | string (levels : Nat) (value : String) : Plain levels (.string value)
  | array (levels : Nat) (items : List Json) :
      (∀ item ∈ items, Plain levels item) → Plain (levels + 1) (.array items)
  | object (levels : Nat) (members : List (String × Json)) :
      (∀ m ∈ members, Plain levels m.2) → Plain (levels + 1) (.object members)

theorem skipSpaces_append {gap : List Char} (hgap : ∀ c ∈ gap, isSpace c) (text : List Char) :
    skipSpaces (gap ++ text) = skipSpaces text := List.dropWhile_append_of_pos hgap

theorem skipSpaces_cons {c : Char} (h : isSpace c = false) (text : List Char) :
    skipSpaces (c :: text) = c :: text := by
  rw [skipSpaces, List.dropWhile_cons_of_neg (by simp [h])]

theorem isSpace_newline (depth : Nat) : ∀ c ∈ newline depth, isSpace c := by
  intro c hc
  rw [newline, List.mem_cons, List.mem_replicate] at hc
  obtain rfl | ⟨-, rfl⟩ := hc <;> rfl

theorem length_newline (depth : Nat) : (newline depth).length = 2 * depth + 1 := by
  rw [newline, List.length_cons, List.length_replicate]

theorem ends_newline (depth : Nat) (rest : List Char) : Ends (newline depth ++ rest) := .newline _

/-- The reader gets a value back from its written form and what stands around it. -/
def ReadBack (levels : Nat) (json : Json) : Prop :=
  ∀ depth fuel gap rest, (∀ c ∈ gap, isSpace c) → Ends rest →
    (writtenChars depth json).length < fuel →
      readValue? levels fuel (gap ++ (writtenChars depth json ++ rest)) = some (json, rest)

variable {levels depth fuel : Nat} {gap text : List Char}

/-- One item, and then what the text behind it says. -/
theorem readItems?_item {item : Json} (h : ReadBack levels item) (hgap : ∀ c ∈ gap, isSpace c)
    (hends : Ends text) (hfuel : (writtenChars depth item).length < fuel) :
    readItems? levels (fuel + 1) (gap ++ (writtenChars depth item ++ text)) =
      match skipSpaces text with
      | ',' :: rest => (readItems? levels fuel rest).map fun (items, rest) => (item :: items, rest)
      | ']' :: rest => some ([item], rest)
      | _ => none := by
  rewrite [readItems?, h depth fuel gap text hgap hends hfuel]
  rfl

theorem readItems?_written (depth fuel : Nat) (gap : List Char) {item : Json} {items : List Json}
    (h : ∀ i ∈ item :: items, ReadBack levels i) (hgap : ∀ c ∈ gap, isSpace c) (rest : List Char)
    (hfuel : (writtenChars (depth + 1) item).length +
      (writtenItems (depth + 1) items).length + 1 < fuel) :
    readItems? levels fuel (gap ++ (writtenChars (depth + 1) item ++
      (writtenItems (depth + 1) items ++ (newline depth ++ ']' :: rest)))) =
        some (item :: items, rest) := by
  induction items generalizing item fuel gap with
  | nil =>
    obtain ⟨fuel, rfl⟩ : ∃ f, fuel = f + 1 := ⟨fuel - 1, by omega⟩
    rw [writtenItems, List.nil_append,
      readItems?_item (h item List.mem_cons_self) hgap (ends_newline ..) (by omega),
      skipSpaces_append (isSpace_newline _), skipSpaces_cons rfl]
    rfl
  | cons next items ih =>
    obtain ⟨fuel, rfl⟩ : ∃ f, fuel = f + 1 := ⟨fuel - 1, by omega⟩
    simp only [writtenItems, List.cons_append, List.append_assoc, List.length_cons,
      List.length_append] at hfuel ⊢
    rw [readItems?_item (h item List.mem_cons_self) hgap (.comma _) (by omega),
      skipSpaces_cons rfl]
    simp only
    rw [ih _ _ (fun i hi => h i (List.mem_cons_of_mem _ hi)) (isSpace_newline _) (by omega)]
    rfl

theorem readItems?_skipSpaces (levels fuel : Nat) (text : List Char) :
    readItems? levels fuel (skipSpaces text) = readItems? levels fuel text := by
  have hskip : skipSpaces (skipSpaces text) = skipSpaces text := List.dropWhile_idempotent _ text
  have hvalue (fuel : Nat) :
      readValue? levels fuel (skipSpaces text) = readValue? levels fuel text := by
    cases fuel with
    | zero => rw [readValue?, readValue?]
    | succ fuel => rw [readValue?, readValue?, hskip]
  cases fuel with
  | zero => rw [readItems?, readItems?]
  | succ fuel => rw [readItems?, readItems?, hvalue]

theorem readItems?_bracket (levels fuel : Nat) (rest : List Char) :
    readItems? levels fuel (']' :: rest) = none := by
  rcases fuel with _ | _ | fuel
  · rw [readItems?]
  · rw [readItems?, readValue?]
  · rw [readItems?, readValue?, skipSpaces_cons rfl]
    rfl

/-- One member, and then what the text behind it says. -/
theorem readMembers?_member (name : String) {value : Json} (h : ReadBack levels value)
    (hgap : ∀ c ∈ gap, isSpace c) (hends : Ends text)
    (hfuel : (writtenChars depth value).length < fuel) :
    readMembers? levels (fuel + 1) (gap ++ (quotedChars name ++ (':' :: ' ' ::
      (writtenChars depth value ++ text)))) =
      match skipSpaces text with
      | ',' :: rest =>
        (readMembers? levels fuel rest).map fun (members, rest) => ((name, value) :: members, rest)
      | '\x7d' :: rest => some ([(name, value)], rest)
      | _ => none := by
  have hvalue := h depth fuel [' '] text (List.forall_mem_singleton.mpr rfl) hends hfuel
  rw [List.cons_append, List.nil_append] at hvalue
  rw [readMembers?, skipSpaces_append hgap, quotedChars, List.cons_append, skipSpaces_cons rfl,
    List.append_assoc, List.cons_append, List.nil_append]
  simp only [stringRest?_chars, skipSpaces_cons (show isSpace ':' = false from rfl),
    String.ofList_toList]
  rewrite [hvalue]
  rfl

theorem readMembers?_written (depth fuel : Nat) (gap : List Char) {member : String × Json}
    {members : List (String × Json)}
    (h : ∀ m ∈ member :: members, ReadBack levels m.2) (hgap : ∀ c ∈ gap, isSpace c)
    (rest : List Char)
    (hfuel : (writtenChars (depth + 1) member.2).length +
      (writtenMembers (depth + 1) members).length + 1 < fuel) :
    readMembers? levels fuel (gap ++ (quotedChars member.1 ++ (':' :: ' ' ::
      (writtenChars (depth + 1) member.2 ++ (writtenMembers (depth + 1) members ++
        (newline depth ++ closing :: rest)))))) = some (member :: members, rest) := by
  induction members generalizing member fuel gap with
  | nil =>
    obtain ⟨fuel, rfl⟩ : ∃ f, fuel = f + 1 := ⟨fuel - 1, by omega⟩
    rw [writtenMembers, List.nil_append,
      readMembers?_member _ (h member List.mem_cons_self) hgap (ends_newline ..) (by omega),
      skipSpaces_append (isSpace_newline _), skipSpaces_cons rfl]
    rfl
  | cons next members ih =>
    obtain ⟨fuel, rfl⟩ : ∃ f, fuel = f + 1 := ⟨fuel - 1, by omega⟩
    simp only [writtenMembers, List.cons_append, List.append_assoc, List.length_cons,
      List.length_append] at hfuel ⊢
    rw [readMembers?_member _ (h member List.mem_cons_self) hgap (.comma _) (by omega),
      skipSpaces_cons rfl]
    simp only
    rw [List.nil_append, ih _ _ (fun m hm => h m (List.mem_cons_of_mem _ hm))
      (isSpace_newline _) (by omega)]
    rfl

theorem head_toString (value : Int) :
    ∃ c chars, (toString value).toList = c :: chars ∧ (c.isDigit ∨ c = '-') := by
  rw [Int.toString_eq_repr, Int.repr_eq_if]
  split
  · rw [Nat.toList_repr]
    cases hdigits : Nat.toDigits 10 value.toNat with
    | nil => exact absurd hdigits Nat.toDigits_ne_nil
    | cons c digits =>
      refine ⟨c, digits, rfl, .inl ?_⟩
      exact Nat.isDigit_of_mem_toDigits (by decide) (by decide) (hdigits ▸ List.mem_cons_self)
  · exact ⟨'-', _, by rw [String.toList_append]; rfl, .inr rfl⟩

theorem readValue?_integer {value : Int} (hlow : -2 ^ 63 ≤ value) (hhigh : value < 2 ^ 64)
    (hgap : ∀ c ∈ gap, isSpace c) (hends : Ends text) :
    readValue? levels (fuel + 1) (gap ++ ((toString value).toList ++ text)) =
      some (.integer value, text) := by
  obtain ⟨c, chars, hchars, hc⟩ := head_toString value
  have hnumber := readNumber?_toString hlow hhigh hends
  have hother (other : Char) (ho : other.isDigit = false) (hd : other ≠ '-') : c ≠ other := by
    rintro rfl
    obtain hdigit | rfl := hc
    · rw [ho] at hdigit
      cases hdigit
    · exact hd rfl
  have hspace : isSpace c = false := by
    simp [isSpace, hother]
  rw [hchars, List.cons_append] at hnumber ⊢
  rw [readValue?, skipSpaces_append hgap, skipSpaces_cons hspace]
  split
  case h_7 => exact hnumber
  all_goals
    next heq =>
    exact absurd (List.cons.inj heq).1 (hother _ (by decide) (by decide))

theorem readBack_of_plain {json : Json} (h : Plain levels json) : ReadBack levels json := by
  induction h with
  | null levels =>
    intro depth fuel gap rest hgap hends hfuel
    obtain ⟨fuel, rfl⟩ : ∃ f, fuel = f + 1 := ⟨fuel - 1, by omega⟩
    rw [writtenChars, readValue?, skipSpaces_append hgap]
    rfl
  | bool levels value =>
    intro depth fuel gap rest hgap hends hfuel
    obtain ⟨fuel, rfl⟩ : ∃ f, fuel = f + 1 := ⟨fuel - 1, by omega⟩
    rw [writtenChars, readValue?, skipSpaces_append hgap]
    cases value <;> rfl
  | integer levels value hlow hhigh =>
    intro depth fuel gap rest hgap hends hfuel
    obtain ⟨fuel, rfl⟩ : ∃ f, fuel = f + 1 := ⟨fuel - 1, by omega⟩
    rw [writtenChars, readValue?_integer hlow hhigh hgap hends]
  | string levels value =>
    intro depth fuel gap rest hgap hends hfuel
    obtain ⟨fuel, rfl⟩ : ∃ f, fuel = f + 1 := ⟨fuel - 1, by omega⟩
    rw [writtenChars, readValue?, skipSpaces_append hgap, quotedChars, List.cons_append,
      skipSpaces_cons rfl, List.append_assoc]
    simp only [List.cons_append, List.nil_append, stringRest?_chars, Option.map_some,
      String.ofList_toList]
  | array levels items hitems ih =>
    intro depth fuel gap rest hgap hends hfuel
    obtain ⟨fuel, rfl⟩ : ∃ f, fuel = f + 1 := ⟨fuel - 1, by omega⟩
    cases items with
    | nil =>
      rw [writtenChars, readValue?, skipSpaces_append hgap]
      rfl
    | cons item items =>
      simp only [writtenChars, List.cons_append, List.append_assoc, List.length_cons,
        List.length_append, List.nil_append, length_newline] at hfuel ⊢
      have hread := readItems?_written depth fuel (newline (depth + 1)) ih
        (isSpace_newline _) rest (by omega)
      rw [← readItems?_skipSpaces] at hread
      rw [readValue?, skipSpaces_append hgap, skipSpaces_cons rfl]
      simp only
      split
      · next hclosed =>
        rw [hclosed, readItems?_bracket] at hread
        cases hread
      · rw [hread]
        rfl
  | object levels members hmembers ih =>
    intro depth fuel gap rest hgap hends hfuel
    obtain ⟨fuel, rfl⟩ : ∃ f, fuel = f + 1 := ⟨fuel - 1, by omega⟩
    cases members with
    | nil =>
      rw [writtenChars, readValue?, skipSpaces_append hgap]
      rfl
    | cons member members =>
      simp only [writtenChars, List.cons_append, List.append_assoc, List.length_cons,
        List.length_append, List.nil_append, length_newline] at hfuel ⊢
      have hread := readMembers?_written depth fuel [] ih nofun rest (by omega)
      rw [List.nil_append] at hread
      rw [readValue?, skipSpaces_append hgap, skipSpaces_cons rfl]
      simp only [opening]
      rw [skipSpaces_append (isSpace_newline _)]
      rw [quotedChars, List.cons_append] at hread ⊢
      rw [skipSpaces_cons rfl]
      exact congrArg (Option.map fun p => (Json.object p.1, p.2)) hread

-- ----------------------------------------------------------------------------
-- Documents
-- ----------------------------------------------------------------------------

theorem read?_written {json : Json} (h : Plain depthLimit json) :
    read? (Bytes.ofString json.written) = some json := by
  have hread := readBack_of_plain h 0 ((writtenChars 0 json).length + 1) [] [] nofun .nil
    (Nat.lt_succ_self _)
  rw [List.nil_append, List.append_nil] at hread
  rw [read?, Bytes.toString?_ofString, Option.bind_some, ofString?, written, String.toList_ofList]
  simp only [hread]
  rfl

end SealedStream.Text.Json
