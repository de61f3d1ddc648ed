import Mathlib.Data.Bool.AllAny
import Mathlib.Data.List.Forall2
import ScriptAudit.Proofs.Text.Lines
import ScriptAudit.Text.Numeral

/-!
Hexadecimal numerals. Reading does not tell capitals from small letters, nor does it depend on the
blanks around a numeral. A text that is read holds no other blanks, and where it has digits and
underscores only, neither a sign nor a mark is looked for. Numbers that are written with the digits
of the base are read back.
-/
namespace ScriptAudit.Text

section Characters

/-- Only 26 letters have another lower case, and these can be gone through. -/
theorem toLower_cases {P : Char → Char → Prop}
    (capital : ∀ place < 26, P (Char.ofNat (65 + place)) (Char.ofNat (65 + place)).toLower)
    (other : ∀ c : Char, c.toNat < 65 ∨ 90 < c.toNat → P c c) (c : Char) : P c c.toLower := by
  by_cases letter : 65 ≤ c.toNat ∧ c.toNat ≤ 90
  · have known := capital (c.toNat - 65) (by omega)
    rwa [Nat.add_sub_cancel' letter.1, Char.ofNat_toNat] at known
  · have kept : c.toLower = c := dif_neg letter
    rw [kept]
    exact other c (by omega)

theorem digit?_toLower : ∀ c : Char, digit? c.toLower = digit? c :=
  toLower_cases (P := fun c small => digit? small = digit? c) (by decide +kernel) fun _ _ => rfl

theorem decimalDigit?_toLower : ∀ c : Char, decimalDigit? c.toLower = decimalDigit? c :=
  toLower_cases (P := fun c small => decimalDigit? small = decimalDigit? c) (by decide +kernel)
    fun _ _ => rfl

theorem isNumeralBlank_toLower : ∀ c : Char, isNumeralBlank c.toLower = isNumeralBlank c :=
  toLower_cases (P := fun c small => isNumeralBlank small = isNumeralBlank c) (by decide +kernel)
    fun _ _ => rfl

theorem toLower_eq_iff {sign : Char} (other : sign ∈ ['_', '+', '-', '0']) :
    ∀ c : Char, c.toLower = sign ↔ c = sign := by
  have capital : ∀ sign ∈ ['_', '+', '-', '0'], ∀ place < 26,
      (Char.ofNat (65 + place)).toLower = sign ↔ Char.ofNat (65 + place) = sign :=
    List.all_iff_forall_prop.mp (by decide +kernel)
  exact toLower_cases (P := fun c small => small = sign ↔ c = sign) (capital sign other)
    fun _ _ => Iff.rfl

theorem toLower_eq_x_iff : ∀ c : Char, c.toLower = 'x' ↔ c = 'x' ∨ c = 'X' := by
  refine toLower_cases (P := fun c small => small = 'x' ↔ c = 'x' ∨ c = 'X') (by decide +kernel)
    fun c small => ⟨Or.inl, ?_⟩
  rintro (same | rfl)
  · exact same
  · exact absurd small (by decide)

theorem toLower_ne_capital_x : ∀ c : Char, c.toLower ≠ 'X' := by
  refine toLower_cases (P := fun _ small => small ≠ 'X') (by decide +kernel) ?_
  rintro _ small rfl
  exact absurd small (by decide)

theorem forall_codes {P : Char → Prop} {codes : List Nat}
    (each : ∀ code ∈ codes, P (Char.ofNat code)) {c : Char} (member : c.toNat ∈ codes) : P c := by
  have known := each c.toNat member
  rwa [Char.ofNat_toNat] at known

theorem mem_blankCodes {c : Char} (blank : isBlank (.char c) = true) : c.toNat ∈ blankCodes :=
  List.contains_iff_mem.mp blank

theorem digit?_of_blank {c : Char} (blank : isBlank (.char c) = true) : digit? c = none :=
  forall_codes (P := fun c => digit? c = none) (by decide +kernel) (mem_blankCodes blank)

theorem decimalDigit?_of_blank {c : Char} (blank : isBlank (.char c) = true) :
    decimalDigit? c = none :=
  forall_codes (P := fun c => decimalDigit? c = none) (by decide +kernel) (mem_blankCodes blank)

end Characters

section Digits

/-- The digits of a numeral by their values; an underscore may stand in front of each. -/
inductive Digits (base : Nat) : List Char → List Nat → Prop where
  | nil : Digits base [] []
  | digit {c : Char} {rest : List Char} {d : Nat} {values : List Nat}
      (value : digitBelow? base c = some d) (more : Digits base rest values) :
      Digits base (c :: rest) (d :: values)
  | spaced {c : Char} {rest : List Char} {d : Nat} {values : List Nat}
      (value : digitBelow? base c = some d) (more : Digits base rest values) :
      Digits base ('_' :: c :: rest) (d :: values)

def InNumeral (base : Nat) (c : Char) : Prop := c = '_' ∨ (digitBelow? base c).isSome = true

def valueFrom (base : Nat) : Nat → List Nat → Nat :=
  List.foldl fun total d => total * base + d

theorem digitBelow?_underscore (base : Nat) : digitBelow? base '_' = none := by
  have none : digit? '_' = none := by decide +kernel
  rw [digitBelow?, none]
  rfl

theorem digitBelow?_toLower (base : Nat) (c : Char) :
    digitBelow? base c.toLower = digitBelow? base c := by
  rw [digitBelow?, digit?_toLower, digitBelow?]

namespace Digits

variable {base : Nat} {chars : List Char} {values : List Nat}

theorem inNumeral (digits : Digits base chars values) : ∀ c ∈ chars, InNumeral base c := by
  induction digits with
  | nil => exact List.forall_mem_nil _
  | digit value _ ih =>
      exact List.forall_mem_cons.mpr ⟨Or.inr (value ▸ rfl), ih⟩
  | spaced value _ ih =>
      exact List.forall_mem_cons.mpr
        ⟨Or.inl rfl, List.forall_mem_cons.mpr ⟨Or.inr (value ▸ rfl), ih⟩⟩

theorem toLower_iff : Digits base (chars.map Char.toLower) values ↔ Digits base chars values := by
  have same := digitBelow?_toLower base
  constructor
  · -- The induction is on the digits in lower case, for all texts that have this lower case.
    intro digits
    generalize small : chars.map Char.toLower = lower at digits
    induction digits generalizing chars with
    | nil =>
        rw [List.map_eq_nil_iff.mp small]
        exact .nil
    | digit value _ ih =>
        obtain ⟨c, rest, rfl, rfl, lower⟩ := List.map_eq_cons_iff.mp small
        exact .digit (same c ▸ value) (ih lower)
    | spaced value _ ih =>
        obtain ⟨sign, others, rfl, underscore, lower⟩ := List.map_eq_cons_iff.mp small
        obtain ⟨c, rest, rfl, rfl, rest⟩ := List.map_eq_cons_iff.mp lower
        obtain rfl := (toLower_eq_iff (by decide) sign).mp underscore
        exact .spaced (same c ▸ value) (ih rest)
  · intro digits
    induction digits with
    | nil => exact .nil
    | @digit c _ _ _ value _ ih => exact .digit ((same c).trans value) ih
    | @spaced c _ _ _ value _ ih => exact .spaced ((same c).trans value) ih

end Digits

theorem readMoreDigits_eq_some_iff (base total : Nat) (chars : List Char) (number : Nat) :
    readMoreDigits base total chars = some number ↔
      ∃ values, Digits base chars values ∧ valueFrom base total values = number := by
  constructor
  · intro read
    fun_induction readMoreDigits base total chars with
    | case1 total => exact ⟨[], .nil, Option.some.inj read⟩
    | case2 total c rest d value ih =>
        obtain ⟨values, digits, same⟩ := ih read
        exact ⟨d :: values, .spaced value digits, same⟩
    | case3 | case5 => cases read
    | case4 total c rest alone d value ih =>
        obtain ⟨values, digits, same⟩ := ih read
        exact ⟨d :: values, .digit value digits, same⟩
  · rintro ⟨values, digits, rfl⟩
    induction digits generalizing total with
    | nil => rfl
    | @digit c _ _ _ value _ ih =>
        rw [readMoreDigits, value]
        · exact ih _
        · rintro _ _ rfl
          rw [digitBelow?_underscore] at value
          cases value
    | spaced value _ ih =>
        rw [readMoreDigits, value]
        exact ih _

theorem readMoreDigits_map_toLower (base total : Nat) (chars : List Char) :
    readMoreDigits base total (chars.map Char.toLower) = readMoreDigits base total chars := by
  apply Option.ext
  intro number
  simp only [readMoreDigits_eq_some_iff, Digits.toLower_iff]

theorem readDigits_cons (base : Nat) (c : Char) (rest : List Char) :
    readDigits base (c :: rest) =
      (digitBelow? base c).bind fun d => readMoreDigits base d rest := by
  rw [readDigits]
  cases digitBelow? base c <;> rfl

theorem readDigits_map_toLower (base : Nat) (chars : List Char) :
    readDigits base (chars.map Char.toLower) = readDigits base chars := by
  cases chars with
  | nil => rfl
  | cons c rest =>
      simp only [List.map_cons, readDigits_cons, digitBelow?_toLower, readMoreDigits_map_toLower]

theorem readDigits_underscore (base : Nat) (rest : List Char) :
    readDigits base ('_' :: rest) = none := by
  rw [readDigits_cons, digitBelow?_underscore]
  rfl

theorem inNumeral_of_readDigits {base number : Nat} {chars : List Char}
    (read : readDigits base chars = some number) : ∀ c ∈ chars, InNumeral base c := by
  cases chars with
  | nil => cases read
  | cons c rest =>
      rw [readDigits_cons, Option.bind_eq_some_iff] at read
      obtain ⟨d, value, more⟩ := read
      obtain ⟨values, digits, _⟩ := (readMoreDigits_eq_some_iff base d rest number).mp more
      exact (Digits.digit value digits).inNumeral

abbrev DigitsOnly (base : Nat) : List Char → List Nat → Prop :=
  List.Forall₂ fun c d => digitBelow? base c = some d

namespace DigitsOnly

theorem digits {base : Nat} {chars : List Char} {values : List Nat}
    (only : DigitsOnly base chars values) : Digits base chars values := by
  induction only with
  | nil => exact .nil
  | cons value _ ih => exact .digit value ih

theorem readDigits {base : Nat} {chars : List Char} {values : List Nat}
    (only : DigitsOnly base chars values) (filled : chars ≠ []) :
    readDigits base chars = some (valueFrom base 0 values) := by
  cases only with
  | nil => exact absurd rfl filled
  | @cons c d rest values value more =>
      have number : valueFrom base 0 (d :: values) = valueFrom base d values := by
        simp [valueFrom]
      rw [readDigits_cons, value, number]
      exact (readMoreDigits_eq_some_iff base d rest _).mpr ⟨values, digits more, rfl⟩

end DigitsOnly

theorem digitsOnly_zeros (count : Nat) :
    DigitsOnly 16 (List.replicate count '0') (List.replicate count 0) := by
  induction count with
  | zero => exact .nil
  | succ count ih => exact .cons (by decide) ih

theorem valueFrom_zeros (base count : Nat) : valueFrom base 0 (List.replicate count 0) = 0 := by
  induction count with
  | zero => rfl
  | succ count ih => simpa [valueFrom, List.replicate_succ] using ih

theorem digitBelow?_digitChar : ∀ d < 16, digitBelow? 16 (Nat.digitChar d) = some d := by decide

theorem digitsOnly_toDigits (number : Nat) :
    ∃ values, DigitsOnly 16 (Nat.toDigits 16 number) values ∧ valueFrom 16 0 values = number := by
  induction number using Nat.base_induction 16 (by decide) with
  | single d small =>
      refine ⟨[d], ?_, by simp [valueFrom]⟩
      rw [Nat.toDigits_of_lt_base small]
      exact .cons (digitBelow?_digitChar d small) .nil
  | digit number d small positive ih =>
      obtain ⟨values, only, value⟩ := ih
      refine ⟨values ++ [d], ?_, ?_⟩
      · rw [← Nat.toDigits_append_toDigits (by decide) positive small,
          Nat.toDigits_of_lt_base small]
        exact List.rel_append only (.cons (digitBelow?_digitChar d small) .nil)
      · rw [valueFrom, List.foldl_append]
        rw [valueFrom] at value
        simp only [value, List.foldl_cons, List.foldl_nil]
        omega

end Digits

section Hexadecimal

theorem dropMark_eq (lead x : Char) (rest : List Char) :
    dropMark (lead :: x :: rest) =
      if decimalDigit? lead = some 0 ∧ (x = 'x' ∨ x = 'X') then
        if rest.head? = some '_' then rest.tail else rest
      else lead :: x :: rest := by
  by_cases spaced : rest.head? = some '_'
  · obtain ⟨more, rfl⟩ := List.head?_eq_some_iff.mp spaced
    simp [dropMark]
  · rw [dropMark]
    · simp [spaced]
    · rintro more rfl
      exact spaced rfl

theorem dropMark_map_toLower (chars : List Char) :
    dropMark (chars.map Char.toLower) = (dropMark chars).map Char.toLower := by
  rcases chars with _ | ⟨lead, _ | ⟨x, rest⟩⟩
  · rfl
  · rfl
  · have underscore : (rest.map Char.toLower).head? = some '_' ↔ rest.head? = some '_' := by
      cases rest with
      | nil => simp
      | cons c rest => simp [toLower_eq_iff]
    simp only [List.map_cons, dropMark_eq, decimalDigit?_toLower, toLower_eq_x_iff,
      toLower_ne_capital_x, or_false, underscore]
    split
    · split
      · rw [List.map_tail]
      · rfl
    · rfl

theorem readSigned_of_unsigned {magnitude : List Char → Option Nat} {chars : List Char}
    (plus : ∀ rest, chars ≠ '+' :: rest) (minus : ∀ rest, chars ≠ '-' :: rest) :
    readSigned magnitude chars = (magnitude chars).map Int.ofNat := by
  unfold readSigned
  split
  · exact absurd rfl (plus _)
  · exact absurd rfl (minus _)
  · rfl

theorem readSigned_map_toLower {magnitude : List Char → Option Nat}
    (alike : ∀ chars, magnitude (chars.map Char.toLower) = magnitude chars) (chars : List Char) :
    readSigned magnitude (chars.map Char.toLower) = readSigned magnitude chars := by
  have kept : ∀ sign ∈ ['+', '-'], (∀ rest, chars ≠ sign :: rest) →
      ∀ rest, chars.map Char.toLower ≠ sign :: rest := by
    intro sign member unsigned rest lower
    obtain ⟨c, others, rfl, same, _⟩ := List.map_eq_cons_iff.mp lower
    have other : sign ∈ ['_', '+', '-', '0'] := by
      rcases List.mem_pair.mp member with rfl | rfl <;> decide
    exact unsigned others (by rw [(toLower_eq_iff other c).mp same])
  by_cases plus : ∃ rest, chars = '+' :: rest
  · obtain ⟨rest, rfl⟩ := plus
    simp [readSigned, alike]
  by_cases minus : ∃ rest, chars = '-' :: rest
  · obtain ⟨rest, rfl⟩ := minus
    simp [readSigned, alike]
  · have plain := not_exists.mp plus
    have positive := not_exists.mp minus
    rw [readSigned_of_unsigned (kept '+' (by decide) plain) (kept '-' (by decide) positive),
      readSigned_of_unsigned plain positive, alike]

theorem hexadecimal?_map_toLower (chars : List Char) :
    hexadecimal? (chars.map Char.toLower) = hexadecimal? chars := by
  have blanks : isNumeralBlank ∘ Char.toLower = isNumeralBlank := funext isNumeralBlank_toLower
  rw [hexadecimal?, trimBy_map, blanks, hexadecimal?]
  refine readSigned_map_toLower (fun digits => ?_) _
  rw [dropMark_map_toLower, readDigits_map_toLower]

/-- Blanks around a numeral make no difference. -/
theorem hexadecimal?_margins {front back : List Char}
    (before : ∀ c ∈ front, isNumeralBlank c = true) (after : ∀ c ∈ back, isNumeralBlank c = true)
    (chars : List Char) : hexadecimal? (front ++ chars ++ back) = hexadecimal? chars := by
  rw [hexadecimal?, trimBy_append before after, hexadecimal?]

theorem isBlank_of_numeralBlank {c : Char} (blank : isNumeralBlank c = true) :
    isBlank (.char c) = true := (Bool.and_eq_true_iff.mp blank).1

theorem InNumeral.not_blank {base : Nat} {c : Char} (inside : InNumeral base c) :
    isBlank (.char c) = false := by
  rcases inside with rfl | digit
  · decide
  · rw [Bool.eq_false_iff]
    intro blank
    rw [digitBelow?, digit?_of_blank blank] at digit
    cases digit

theorem not_inNumeral {sign : Char} (other : sign ∈ ['+', '-', 'x', 'X']) :
    ¬ InNumeral 16 sign := by
  have outside : ∀ sign ∈ ['+', '-', 'x', 'X'], ¬ InNumeral 16 sign := by
    unfold InNumeral
    exact List.all_iff_forall_prop.mp (by decide)
  exact outside sign other

/-- Where there are digits and underscores only, neither a sign nor a mark is found. -/
theorem hexadecimal?_of_inNumeral {chars : List Char} (inside : ∀ c ∈ chars, InNumeral 16 c) :
    hexadecimal? chars = (readDigits 16 chars).map Int.ofNat := by
  have unmarked : dropMark chars = chars := by
    rcases chars with _ | ⟨lead, _ | ⟨x, rest⟩⟩
    · rfl
    · rfl
    · rw [dropMark_eq, if_neg]
      rintro ⟨_, rfl | rfl⟩
      · exact not_inNumeral (by decide) (inside 'x' (by simp))
      · exact not_inNumeral (by decide) (inside 'X' (by simp))
  have tight : Tight (fun c => isBlank (.char c)) chars :=
    tight_of_forall fun c member => (inside c member).not_blank
  rw [hexadecimal?, trimBy_of_tight (tight.weaken fun _ => isBlank_of_numeralBlank),
    readSigned_of_unsigned, unmarked]
  · rintro rest rfl
    exact not_inNumeral (by decide) (inside '+' List.mem_cons_self)
  · rintro rest rfl
    exact not_inNumeral (by decide) (inside '-' List.mem_cons_self)

theorem mem_dropMark {chars : List Char} {c : Char} (member : c ∈ chars) :
    c ∈ dropMark chars ∨ isBlank (.char c) = false := by
  rcases chars with _ | ⟨lead, _ | ⟨x, rest⟩⟩
  · exact Or.inl member
  · exact Or.inl member
  · rw [dropMark_eq]
    by_cases mark : decimalDigit? lead = some 0 ∧ (x = 'x' ∨ x = 'X')
    · rw [if_pos mark]
      rcases List.mem_cons.mp member with rfl | later
      · right
        rw [Bool.eq_false_iff]
        intro blank
        rw [decimalDigit?_of_blank blank] at mark
        cases mark.1
      rcases List.mem_cons.mp later with rfl | behind
      · right
        rcases mark.2 with rfl | rfl <;> decide
      · by_cases spaced : rest.head? = some '_'
        · rw [if_pos spaced]
          obtain ⟨more, rfl⟩ := List.head?_eq_some_iff.mp spaced
          rcases List.mem_cons.mp behind with rfl | further
          · exact Or.inr (by decide)
          · exact Or.inl further
        · rw [if_neg spaced]
          exact Or.inl behind
    · rw [if_neg mark]
      exact Or.inl member

/-- No blank stands inside a numeral that is read. -/
theorem unblank_of_hexadecimal? {chars : List Char} {number : Int}
    (read : hexadecimal? chars = some number) :
    ∀ c ∈ trimBy isNumeralBlank chars, isBlank (.char c) = false := by
  have body : ∀ chars, readDigits 16 (dropMark chars) ≠ none →
      ∀ c ∈ chars, isBlank (.char c) = false := by
    intro chars found c member
    obtain ⟨value, result⟩ := Option.ne_none_iff_exists'.mp found
    rcases mem_dropMark member with kept | unblank
    · exact (inNumeral_of_readDigits result c kept).not_blank
    · exact unblank
  unfold hexadecimal? readSigned at read
  split at read
  case h_1 rest signed =>
    rw [signed]
    refine List.forall_mem_cons.mpr ⟨by decide, body rest fun none => ?_⟩
    simp [none] at read
  case h_2 rest signed =>
    rw [signed]
    refine List.forall_mem_cons.mpr ⟨by decide, body rest fun none => ?_⟩
    simp [none] at read
  case h_3 =>
    refine body _ fun none => ?_
    simp [none] at read

theorem blanks_of_hexadecimal? {chars : List Char} {number : Int}
    (read : hexadecimal? chars = some number) :
    ∀ c ∈ chars, isNumeralBlank c = true ∨ isBlank (.char c) = false := by
  obtain ⟨front, back, whole, before, after⟩ := exists_margins isNumeralBlank chars
  intro c member
  rw [whole, List.mem_append, List.mem_append] at member
  rcases member with (first | inside) | last
  · exact Or.inl (before c first)
  · exact Or.inr (unblank_of_hexadecimal? read c inside)
  · exact Or.inl (after c last)

theorem trimBy_of_hexadecimal? {chars : List Char} {number : Int}
    (read : hexadecimal? chars = some number) :
    trimBy isNumeralBlank chars = trimBy (fun c => isBlank (.char c)) chars := by
  obtain ⟨front, back, whole, before, after⟩ := exists_margins isNumeralBlank chars
  have blank : ∀ {c}, isNumeralBlank c = true → isBlank (.char c) = true := isBlank_of_numeralBlank
  calc trimBy isNumeralBlank chars
    _ = trimBy (fun c => isBlank (.char c)) (trimBy isNumeralBlank chars) :=
        (trimBy_of_tight (tight_of_forall (unblank_of_hexadecimal? read))).symm
    _ = trimBy (fun c => isBlank (.char c)) (front ++ trimBy isNumeralBlank chars ++ back) :=
        (trimBy_append (fun c member => blank (before c member))
          (fun c member => blank (after c member)) _).symm
    _ = trimBy (fun c => isBlank (.char c)) chars := by rw [← whole]

theorem hexadecimal?_marked {x : Char} {rest : List Char} (mark : x = 'x' ∨ x = 'X')
    (tight : Tight isNumeralBlank ('0' :: x :: rest)) (digit : rest.head? ≠ some '_') :
    hexadecimal? ('0' :: x :: rest) = (readDigits 16 rest).map Int.ofNat := by
  rw [hexadecimal?, trimBy_of_tight tight, readSigned_of_unsigned (by simp) (by simp), dropMark_eq,
    if_pos ⟨by decide, mark⟩, if_neg digit]

theorem hexadecimal?_underscore {rest : List Char} (tight : Tight isNumeralBlank ('_' :: rest)) :
    hexadecimal? ('_' :: rest) = none := by
  have unmarked : dropMark ('_' :: rest) = '_' :: rest := by
    cases rest with
    | nil => rfl
    | cons x rest => rw [dropMark_eq, if_neg fun mark => absurd mark.1 (by decide)]
  rw [hexadecimal?, trimBy_of_tight tight, readSigned_of_unsigned (by simp) (by simp), unmarked,
    readDigits_underscore]
  rfl

end Hexadecimal
end ScriptAudit.Text
