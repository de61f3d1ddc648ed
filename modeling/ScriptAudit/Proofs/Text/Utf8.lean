import ScriptAudit.Text.Utf8

/-!
UTF-8 in both directions. The forms of a character are stated once, by the ranges of their bytes;
the first character of some bytes is read exactly from one of its forms, and writing gives that
form. So bytes are read as a text exactly if the text is written as these bytes.
-/
namespace ScriptAudit.Text

def IsContinuation (byte : UInt8) : Prop := 0x80 ≤ byte.toNat ∧ byte.toNat < 0xC0

/-- The forms of a character. The first byte tells how many follow it, and the code is one that
needs so many. -/
inductive Encoded (c : Char) : List UInt8 → Prop where
  | one {a : UInt8} : a.toNat < 0x80 → c.toNat = a.toNat → Encoded c [a]
  | two {a b : UInt8} : 0xC0 ≤ a.toNat → a.toNat < 0xE0 → IsContinuation b →
      c.toNat = (a.toNat - 0xC0) * 64 + (b.toNat - 0x80) → 0x80 ≤ c.toNat → Encoded c [a, b]
  | three {a b d : UInt8} : 0xE0 ≤ a.toNat → a.toNat < 0xF0 → IsContinuation b →
      IsContinuation d →
      c.toNat = ((a.toNat - 0xE0) * 64 + (b.toNat - 0x80)) * 64 + (d.toNat - 0x80) →
      0x800 ≤ c.toNat → Encoded c [a, b, d]
  | four {a b d e : UInt8} : 0xF0 ≤ a.toNat → IsContinuation b → IsContinuation d →
      IsContinuation e →
      c.toNat = (((a.toNat - 0xF0) * 64 + (b.toNat - 0x80)) * 64 + (d.toNat - 0x80)) * 64 +
        (e.toNat - 0x80) →
      0x10000 ≤ c.toNat → Encoded c [a, b, d, e]

section Reading

theorem continued_zero_iff (code : Nat) (bytes : List UInt8) (result : Nat × List UInt8) :
    continued 0 code bytes = some result ↔ (code, bytes) = result := by
  simp [continued]

theorem continued_succ_iff (count code : Nat) (bytes : List UInt8) (result : Nat × List UInt8) :
    continued (count + 1) code bytes = some result ↔
      ∃ byte rest, bytes = byte :: rest ∧ IsContinuation byte ∧
        continued count (code * 64 + (byte.toNat - 0x80)) rest = some result := by
  cases bytes with
  | nil => simp [continued]
  | cons byte rest =>
      have range : (0x80 ≤ byte && byte < 0xC0) = true ↔ IsContinuation byte := by
        simp [IsContinuation, UInt8.le_iff_toNat_le, UInt8.lt_iff_toNat_lt]
      rw [continued]
      constructor
      · intro found
        by_cases fits : (0x80 ≤ byte && byte < 0xC0) = true
        · rw [if_pos fits] at found
          exact ⟨byte, rest, rfl, range.mp fits, found⟩
        · rw [if_neg fits] at found
          cases found
      · rintro ⟨_, _, same, fits, found⟩
        cases same
        rw [if_pos (range.mpr fits)]
        exact found

theorem toNat_ofNat_of_valid {code : Nat} (valid : code.isValidChar) :
    (Char.ofNat code).toNat = code := by
  have shown : Char.ofNat code = Char.ofNatAux code valid := dif_pos valid
  rw [shown]
  rfl

/-- No surrogate is a character, so its range need not be asked for. -/
theorem charFrom?_eq_some_iff (least code : Nat) (rest after : List UInt8) (c : Char) :
    charFrom? least (code, rest) = some (c, after) ↔
      least ≤ code ∧ code = c.toNat ∧ rest = after := by
  have valid : c.toNat.isValidChar := c.valid
  simp only [charFrom?, Bool.and_eq_true, Bool.or_eq_true, decide_eq_true_eq,
    Option.ite_none_right_eq_some, Option.some.injEq, Prod.mk.injEq, and_assoc]
  refine and_congr_right fun _ => ?_
  constructor
  · rintro ⟨range, rfl, rfl⟩
    refine ⟨(toNat_ofNat_of_valid ?_).symm, rfl⟩
    unfold Nat.isValidChar
    omega
  · rintro ⟨rfl, rfl⟩
    unfold Nat.isValidChar at valid
    exact ⟨by omega, Char.ofNat_toNat c, rfl⟩

theorem continued_char_iff (count start least : Nat) (bytes after : List UInt8) (c : Char) :
    (continued count start bytes).bind (charFrom? least) = some (c, after) ↔
      continued count start bytes = some (c.toNat, after) ∧ least ≤ c.toNat := by
  constructor
  · intro found
    obtain ⟨⟨code, rest⟩, goes, made⟩ := Option.bind_eq_some_iff.mp found
    obtain ⟨enough, rfl, rfl⟩ := (charFrom?_eq_some_iff least code rest after c).mp made
    exact ⟨goes, enough⟩
  · rintro ⟨goes, enough⟩
    rw [goes]
    exact (charFrom?_eq_some_iff least c.toNat after after c).mpr ⟨enough, rfl, rfl⟩

theorem firstChar?_cons (lead : UInt8) (rest : List UInt8) :
    firstChar? (lead :: rest) =
      if lead.toNat < 0x80 then some (Char.ofNat lead.toNat, rest)
      else if lead.toNat < 0xC0 then none
      else if lead.toNat < 0xE0 then
        (continued 1 (lead.toNat - 0xC0) rest).bind (charFrom? 0x80)
      else if lead.toNat < 0xF0 then
        (continued 2 (lead.toNat - 0xE0) rest).bind (charFrom? 0x800)
      else (continued 3 (lead.toNat - 0xF0) rest).bind (charFrom? 0x10000) := by
  simp only [firstChar?, UInt8.lt_iff_toNat_lt, UInt8.reduceToNat]

theorem encoded_of_firstChar? {bytes after : List UInt8} {c : Char}
    (found : firstChar? bytes = some (c, after)) :
    ∃ form, Encoded c form ∧ bytes = form ++ after := by
  cases bytes with
  | nil => cases found
  | cons lead rest =>
      -- The branches are the ranges of the first byte, from the shortest form to the longest.
      rw [firstChar?_cons] at found
      by_cases small : lead.toNat < 0x80
      · rw [if_pos small] at found
        cases found
        exact ⟨[lead], .one small (toNat_ofNat_of_valid (Or.inl (by omega))), rfl⟩
      rw [if_neg small] at found
      by_cases inside : lead.toNat < 0xC0
      · rw [if_pos inside] at found
        cases found
      rw [if_neg inside] at found
      by_cases two : lead.toNat < 0xE0
      · simp only [two, ↓reduceIte, continued_char_iff, continued_succ_iff, continued_zero_iff,
          Prod.mk.injEq] at found
        obtain ⟨⟨b, _, rfl, last, code, rfl⟩, enough⟩ := found
        exact ⟨[lead, b], .two (by omega) (by omega) last code.symm enough, rfl⟩
      rw [if_neg two] at found
      by_cases three : lead.toNat < 0xF0
      · simp only [three, ↓reduceIte, continued_char_iff, continued_succ_iff, continued_zero_iff,
          Prod.mk.injEq] at found
        obtain ⟨⟨b, _, rfl, second, d, _, rfl, last, code, rfl⟩, enough⟩ := found
        exact ⟨[lead, b, d], .three (by omega) (by omega) second last code.symm enough, rfl⟩
      rw [if_neg three] at found
      simp only [continued_char_iff, continued_succ_iff, continued_zero_iff,
        Prod.mk.injEq] at found
      obtain ⟨⟨b, _, rfl, second, d, _, rfl, third, e, _, rfl, last, code, rfl⟩, enough⟩ := found
      exact ⟨[lead, b, d, e], .four (by omega) second third last code.symm enough, rfl⟩

theorem Encoded.firstChar? {c : Char} {form : List UInt8} (encoded : Encoded c form)
    (after : List UInt8) : firstChar? (form ++ after) = some (c, after) := by
  cases encoded with
  | one small code =>
      rw [List.singleton_append, firstChar?_cons, if_pos small, ← code, Char.ofNat_toNat]
  | two least most last code enough =>
      rw [List.cons_append, firstChar?_cons, if_neg (by omega), if_neg (by omega), if_pos most]
      simp only [continued_char_iff, continued_succ_iff, continued_zero_iff, Prod.mk.injEq]
      exact ⟨⟨_, _, rfl, last, code.symm, rfl⟩, enough⟩
  | three least most second last code enough =>
      rw [List.cons_append, firstChar?_cons, if_neg (by omega), if_neg (by omega),
        if_neg (by omega), if_pos most]
      simp only [continued_char_iff, continued_succ_iff, continued_zero_iff, Prod.mk.injEq]
      exact ⟨⟨_, _, rfl, second, _, _, rfl, last, code.symm, rfl⟩, enough⟩
  | four least second third last code enough =>
      rw [List.cons_append, firstChar?_cons, if_neg (by omega), if_neg (by omega),
        if_neg (by omega), if_neg (by omega)]
      simp only [continued_char_iff, continued_succ_iff, continued_zero_iff, Prod.mk.injEq]
      exact ⟨⟨_, _, rfl, second, _, _, rfl, third, _, _, rfl, last, code.symm, rfl⟩, enough⟩

end Reading

section Writing

theorem utf8EncodeChar_eq (c : Char) :
    String.utf8EncodeChar c =
      if c.toNat ≤ 0x7F then [UInt8.ofNat c.toNat]
      else if c.toNat ≤ 0x7FF then
        [UInt8.ofNat (c.toNat / 64 % 32 + 0xC0), UInt8.ofNat (c.toNat % 64 + 0x80)]
      else if c.toNat ≤ 0xFFFF then
        [UInt8.ofNat (c.toNat / 4096 % 16 + 0xE0), UInt8.ofNat (c.toNat / 64 % 64 + 0x80),
          UInt8.ofNat (c.toNat % 64 + 0x80)]
      else
        [UInt8.ofNat (c.toNat / 262144 % 8 + 0xF0), UInt8.ofNat (c.toNat / 4096 % 64 + 0x80),
          UInt8.ofNat (c.toNat / 64 % 64 + 0x80), UInt8.ofNat (c.toNat % 64 + 0x80)] := rfl

theorem eq_ofNat {byte : UInt8} {number : Nat} (same : byte.toNat = number) :
    byte = UInt8.ofNat number := by
  rw [← same, UInt8.ofNat_toNat]

theorem toNat_ofNat_of_lt {number : Nat} (small : number < 256) :
    (UInt8.ofNat number).toNat = number := by
  rw [UInt8.toNat_ofNat']
  exact Nat.mod_eq_of_lt small

theorem Encoded.eq_encode {c : Char} {form : List UInt8} (encoded : Encoded c form) :
    form = String.utf8EncodeChar c := by
  have valid : c.toNat.isValidChar := c.valid
  unfold Nat.isValidChar at valid
  rw [utf8EncodeChar_eq]
  cases encoded with
  | one small code => rw [if_pos (by omega), ← eq_ofNat code.symm]
  | two least most last code enough =>
      unfold IsContinuation at last
      rw [if_neg (by omega), if_pos (by omega)]
      simp only [List.cons.injEq, and_true]
      exact ⟨eq_ofNat (by omega), eq_ofNat (by omega)⟩
  | three least most second last code enough =>
      unfold IsContinuation at second last
      rw [if_neg (by omega), if_neg (by omega), if_pos (by omega)]
      simp only [List.cons.injEq, and_true]
      exact ⟨eq_ofNat (by omega), eq_ofNat (by omega), eq_ofNat (by omega)⟩
  | four least second third last code enough =>
      unfold IsContinuation at second third last
      rw [if_neg (by omega), if_neg (by omega), if_neg (by omega)]
      simp only [List.cons.injEq, and_true]
      exact ⟨eq_ofNat (by omega), eq_ofNat (by omega), eq_ofNat (by omega), eq_ofNat (by omega)⟩

theorem toNat_continuation (code : Nat) :
    (UInt8.ofNat (code % 64 + 0x80)).toNat = code % 64 + 0x80 :=
  toNat_ofNat_of_lt (by omega)

theorem isContinuation_ofNat (code : Nat) : IsContinuation (UInt8.ofNat (code % 64 + 0x80)) := by
  rw [IsContinuation, toNat_continuation]
  omega

theorem encoded_encode (c : Char) : Encoded c (String.utf8EncodeChar c) := by
  have valid : c.toNat.isValidChar := c.valid
  unfold Nat.isValidChar at valid
  have last := toNat_continuation c.toNat
  have third := toNat_continuation (c.toNat / 64)
  have second := toNat_continuation (c.toNat / 4096)
  rw [utf8EncodeChar_eq]
  split
  · have lead : (UInt8.ofNat c.toNat).toNat = c.toNat := toNat_ofNat_of_lt (by omega)
    exact .one (by omega) lead.symm
  split
  · have lead : (UInt8.ofNat (c.toNat / 64 % 32 + 0xC0)).toNat = c.toNat / 64 % 32 + 0xC0 :=
      toNat_ofNat_of_lt (by omega)
    exact .two (by omega) (by omega) (isContinuation_ofNat _) (by omega) (by omega)
  split
  · have lead : (UInt8.ofNat (c.toNat / 4096 % 16 + 0xE0)).toNat = c.toNat / 4096 % 16 + 0xE0 :=
      toNat_ofNat_of_lt (by omega)
    exact .three (by omega) (by omega) (isContinuation_ofNat _) (isContinuation_ofNat _)
      (by omega) (by omega)
  · have lead : (UInt8.ofNat (c.toNat / 262144 % 8 + 0xF0)).toNat = c.toNat / 262144 % 8 + 0xF0 :=
      toNat_ofNat_of_lt (by omega)
    exact .four (by omega) (isContinuation_ofNat _) (isContinuation_ofNat _)
      (isContinuation_ofNat _) (by omega) (by omega)

end Writing

/-- Reading gives a character exactly where its bytes are written. -/
theorem firstChar?_eq_some_iff (bytes after : List UInt8) (c : Char) :
    firstChar? bytes = some (c, after) ↔ bytes = String.utf8EncodeChar c ++ after := by
  constructor
  · intro found
    obtain ⟨form, encoded, rfl⟩ := encoded_of_firstChar? found
    rw [encoded.eq_encode]
  · rintro rfl
    exact (encoded_encode c).firstChar? after

theorem charsAndBytes_iff {fuel : Nat} {bytes : List UInt8} (enough : bytes.length ≤ fuel)
    (chars : List Char) :
    (charsAndBytes fuel bytes).mapM Except.toOption = some chars ↔
      bytes = chars.flatMap String.utf8EncodeChar := by
  fun_induction charsAndBytes fuel bytes generalizing chars with
  | case1 bytes =>
      rw [List.length_eq_zero_iff.mp (Nat.le_zero.mp enough)]
      cases chars <;> simp
  | case2 fuel => cases chars <;> simp
  | case3 fuel byte rest c after found ih =>
      have split := (firstChar?_eq_some_iff (byte :: rest) after c).mp found
      have fewer : after.length ≤ fuel := by
        have long := congrArg List.length split
        have filled := List.length_pos_iff.mpr (String.utf8EncodeChar_ne_nil (c := c))
        rw [List.length_append] at long
        rw [List.length_cons] at long enough
        omega
      simp only [List.mapM_cons, Except.toOption, Option.pure_def, Option.bind_eq_bind,
        Option.bind_some, Option.bind_eq_some_iff, ih fewer, Option.some.injEq]
      constructor
      · rintro ⟨others, rfl, rfl⟩
        exact split
      · intro whole
        cases chars with
        | nil => cases whole
        | cons first others =>
            rw [List.flatMap_cons, ← firstChar?_eq_some_iff, found] at whole
            cases whole
            exact ⟨others, rfl, rfl⟩
  | case4 fuel byte rest none ih =>
      -- A byte that begins no character cannot begin what is written either.
      simp only [List.mapM_cons, Except.toOption, Option.bind_eq_bind, Option.bind_none,
        reduceCtorEq, false_iff]
      intro whole
      cases chars with
      | nil => cases whole
      | cons first others =>
          rw [List.flatMap_cons, ← firstChar?_eq_some_iff, none] at whole
          cases whole

theorem mapM_utf8?_iff (text : Text) (parts : List (List UInt8)) :
    text.mapM utf8? = some parts ↔
      ∃ chars, text = ofChars chars ∧ parts = chars.map String.utf8EncodeChar := by
  induction text generalizing parts with
  | nil => simp [ofChars]
  | cons point rest ih =>
      cases point with
      | surrogate place =>
          simp only [List.mapM_cons, utf8?, Option.bind_eq_bind, Option.bind_none, reduceCtorEq,
            false_iff]
          rintro ⟨chars, same, _⟩
          cases chars <;> cases same
      | char c =>
          simp only [List.mapM_cons, utf8?, Option.pure_def, Option.bind_eq_bind,
            Option.bind_some, Option.bind_eq_some_iff, ih, Option.some.injEq]
          constructor
          · rintro ⟨_, ⟨chars, rfl, rfl⟩, rfl⟩
            exact ⟨c :: chars, rfl, rfl⟩
          · rintro ⟨chars, same, rfl⟩
            cases chars with
            | nil => cases same
            | cons first chars =>
                cases same
                exact ⟨_, ⟨chars, rfl, rfl⟩, rfl⟩

theorem encodeBy_eq_ok_iff (bytes? : CodePoint → Option (List UInt8)) (text : Text)
    (bytes : List UInt8) :
    text.encodeBy bytes? = .ok bytes ↔ ∃ parts, text.mapM bytes? = some parts ∧
      parts.flatten = bytes := by
  unfold encodeBy
  cases text.mapM bytes? <;> simp

/-- Bytes are read as a text exactly if the text is written as these bytes. -/
theorem ofUtf8?_eq_some_iff (bytes : List UInt8) (text : Text) :
    ofUtf8? bytes = some text ↔ toUtf8 text = .ok bytes := by
  simp only [ofUtf8?, Option.map_eq_some_iff, charsAndBytes_iff (Nat.le_refl bytes.length),
    toUtf8, encodeBy_eq_ok_iff, mapM_utf8?_iff]
  constructor
  · rintro ⟨chars, rfl, rfl⟩
    exact ⟨_, ⟨chars, rfl, rfl⟩, List.flatMap_def.symm⟩
  · rintro ⟨_, ⟨chars, rfl, rfl⟩, rfl⟩
    exact ⟨chars, List.flatMap_def.symm, rfl⟩

end ScriptAudit.Text
