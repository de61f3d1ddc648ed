import ScriptAudit.Proofs.Steps
import ScriptAudit.Script.Reader

/-!
Readers and forms. A form says which bytes stand for which value. A reader recognizes a
form when it takes exactly the bytes of the form off its input, whatever follows them, and
gives their value. The forms of the parts of a reader then make up the form of the whole,
and no bytes of a recognized form begin other bytes of it.
-/
namespace ScriptAudit.Reader

variable {α β : Type}

structure Recognizes (reader : Reader α) (form : α → Bytes → Prop) : Prop where
  complete : ∀ value bytes rest, form value bytes → reader (bytes ++ rest) = .ok value rest
  sound : ∀ value input rest, reader input = .ok value rest →
    ∃ bytes, input = bytes ++ rest ∧ form value bytes

theorem bind_of_ok {reader : Reader α} {next : α → Reader β} {input middle : Bytes}
    {value : α} (read : reader input = .ok value middle) :
    (reader >>= next) input = next value middle := by
  change EStateM.bind reader next input = _
  simp only [EStateM.bind, read]

namespace Recognizes

/-- A reader does the same on both splits of an input, so a recognized form is prefix free
and has one value for each of its words. -/
theorem deterministic {reader : Reader α} {form : α → Bytes → Prop}
    (known : Recognizes reader form) {one other : α} {left right leftRest rightRest : Bytes}
    (first : form one left) (second : form other right)
    (same : left ++ leftRest = right ++ rightRest) : one = other ∧ left = right := by
  have readLeft := known.complete one left leftRest first
  have readRight := known.complete other right rightRest second
  rw [same, readRight] at readLeft
  cases readLeft
  exact ⟨rfl, List.append_cancel_right same⟩

theorem congr {reader : Reader α} {form other : α → Bytes → Prop}
    (known : Recognizes reader form)
    (same : ∀ value bytes, form value bytes ↔ other value bytes) : Recognizes reader other := by
  have equal : form = other := by
    funext value bytes
    exact propext (same value bytes)
  exact equal ▸ known

theorem nothing (value : α) :
    Recognizes (pure value) fun result bytes => result = value ∧ bytes = [] := by
  constructor
  · rintro result bytes rest ⟨rfl, rfl⟩
    rfl
  · intro result input rest read
    cases read
    exact ⟨[], rfl, rfl, rfl⟩

theorem failure (fault : Fault) :
    Recognizes (throw fault : Reader α) fun _ _ => False := by
  constructor
  · intro _ _ _ never
    exact never.elim
  · intro _ _ _ read
    cases read

theorem bind {reader : Reader α} {form : α → Bytes → Prop} {next : α → Reader β}
    {forms : α → β → Bytes → Prop} (first : Recognizes reader form)
    (second : ∀ value, Recognizes (next value) (forms value)) :
    Recognizes (reader >>= next) fun result bytes =>
      ∃ value front back, bytes = front ++ back ∧ form value front ∧ forms value result back := by
  constructor
  · rintro result bytes rest ⟨value, front, back, rfl, whole, follows⟩
    rw [List.append_assoc, bind_of_ok (first.complete value front (back ++ rest) whole)]
    exact (second value).complete result back rest follows
  · intro result input rest read
    obtain ⟨value, middle, readFirst, readSecond⟩ := Steps.bind_ok_iff.mp read
    obtain ⟨front, rfl, whole⟩ := first.sound value input middle readFirst
    obtain ⟨back, rfl, follows⟩ := (second value).sound result middle rest readSecond
    exact ⟨front ++ back, by simp, value, front, back, rfl, whole, follows⟩

theorem map {reader : Reader α} {form : α → Bytes → Prop} (known : Recognizes reader form)
    (f : α → β) :
    Recognizes (do return f (← reader)) fun result bytes =>
      ∃ value, form value bytes ∧ result = f value := by
  apply (known.bind fun value => nothing (f value)).congr
  intro result bytes
  constructor
  · rintro ⟨value, front, back, rfl, whole, rfl, rfl⟩
    exact ⟨value, by simpa using whole, rfl⟩
  · rintro ⟨value, whole, rfl⟩
    exact ⟨value, bytes, [], by simp, whole, rfl, rfl⟩

theorem fixed {reader : Reader α} {size : Nat} {content : Bytes → α}
    (known : Recognizes reader fun value bytes => bytes.length = size ∧ value = content bytes)
    (f : α → β) :
    Recognizes (do return f (← reader)) fun result bytes =>
      bytes.length = size ∧ result = f (content bytes) := by
  apply (known.map f).congr
  intro result bytes
  constructor
  · rintro ⟨_, ⟨wide, rfl⟩, rfl⟩
    exact ⟨wide, rfl⟩
  · rintro ⟨wide, rfl⟩
    exact ⟨content bytes, ⟨wide, rfl⟩, rfl⟩

end Recognizes

theorem take_recognizes (size : Nat) :
    Recognizes (take size) fun value bytes => bytes.length = size ∧ value = bytes := by
  constructor
  · rintro value bytes rest ⟨rfl, rfl⟩
    simp [take]
  · intro value input rest read
    by_cases enough : size ≤ input.length
    · simp only [take, enough, ↓reduceIte] at read
      cases read
      exact ⟨input.take size, by simp, List.length_take_of_le enough, rfl⟩
    · simp [take, enough] at read

theorem unsigned_recognizes (size : Nat) :
    Recognizes (unsigned size) fun value bytes =>
      bytes.length = size ∧ value = littleEndian bytes :=
  (take_recognizes size).fixed littleEndian

def signedValue (bytes : Bytes) : Int :=
  Int.bmod (littleEndian bytes) (Nat.pow 256 bytes.length)

theorem signed_recognizes (size : Nat) :
    Recognizes (signed size) fun value bytes =>
      bytes.length = size ∧ value = signedValue bytes := by
  apply ((unsigned_recognizes size).fixed fun value => Int.bmod value (Nat.pow 256 size)).congr
  intro value bytes
  -- Both sides say the size of the bytes, so it may stand for the size asked for.
  apply and_congr_right
  rintro rfl
  rfl

theorem tag_recognizes :
    Recognizes tag fun value bytes => ∃ byte : UInt8, bytes = [byte] ∧ value = byte.toNat := by
  apply ((unsigned_recognizes 1).map fun value => (value : Int)).congr
  intro value bytes
  constructor
  · rintro ⟨_, ⟨wide, rfl⟩, rfl⟩
    obtain ⟨byte, rfl⟩ := List.length_eq_one_iff.mp wide
    exact ⟨byte, rfl, by simp [littleEndian]⟩
  · rintro ⟨byte, rfl, rfl⟩
    exact ⟨byte.toNat, ⟨rfl, by simp [littleEndian]⟩, rfl⟩

theorem tag_bind_recognizes {next : Int → Reader β} {forms : UInt8 → β → Bytes → Prop}
    (known : ∀ byte : UInt8, Recognizes (next byte.toNat) (forms byte)) :
    Recognizes (tag >>= next) fun result bytes =>
      ∃ byte back, bytes = byte :: back ∧ forms byte result back := by
  constructor
  · rintro result bytes rest ⟨byte, back, rfl, follows⟩
    have readTag := tag_recognizes.complete byte.toNat [byte] (back ++ rest) ⟨byte, rfl, rfl⟩
    rw [List.cons_append, ← List.singleton_append, bind_of_ok readTag]
    exact (known byte).complete result back rest follows
  · intro result input rest read
    obtain ⟨value, middle, readTag, readRest⟩ := Steps.bind_ok_iff.mp read
    obtain ⟨_, rfl, byte, rfl, rfl⟩ := tag_recognizes.sound value input middle readTag
    obtain ⟨back, rfl, follows⟩ := (known byte).sound result middle rest readRest
    exact ⟨byte :: back, rfl, byte, back, rfl, follows⟩

end ScriptAudit.Reader
