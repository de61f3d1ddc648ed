import ScriptAudit.Proofs.Audit.Listing

/-!
Listings under a limit. The order in which entries were found leaves no trace in a listing, since
there is one arrangement of a map by ascending offset. A limit that is used up keeps the front of
this arrangement, and the mark stands for the rest. The messages have no limit.
-/
namespace ScriptAudit

structure Arrangement {α : Type} (entries ordered : List (Int × α)) : Prop where
  all : ordered.Perm entries
  ascending : (ordered.map Prod.fst).Pairwise (· < ·)

namespace Arrangement

variable {α : Type} {entries others one other : List (Int × α)}

theorem of_byOffset (once : (entries.map Prod.fst).Nodup) :
    Arrangement entries (byOffset entries) :=
  ⟨byOffset_perm entries, byOffset_ascending once⟩

/-- There is one arrangement, whatever the order of the entries. -/
theorem unique (first : Arrangement entries one) (second : Arrangement others other)
    (same : entries.Perm others) : one = other := by
  have perm : one.Perm other := first.all.trans (same.trans second.all.symm)
  have ascending := List.pairwise_map.mp first.ascending
  have otherAscending := List.pairwise_map.mp second.ascending
  -- Offsets ascend strictly, so of two entries only one can stand before the other.
  apply perm.eq_of_pairwise _ ascending otherAscending
  intro _ _ _ _ below above
  exact absurd above (Int.lt_asymm below)

theorem byOffset_congr (once : (entries.map Prod.fst).Nodup) (same : others.Perm entries) :
    byOffset others = byOffset entries := by
  have othersOnce : (others.map Prod.fst).Nodup := (same.map Prod.fst).nodup_iff.mpr once
  exact (of_byOffset othersOnce).unique (of_byOffset once) same

end Arrangement

namespace Listing

/-- The line of an instruction begins with a digit or a sign. -/
theorem format_ne_truncationMark {instruction : Instruction} {line : Text}
    (formatted : instruction.format = .ok line) : line ≠ truncationMark := by
  rintro rfl
  obtain ⟨args, _, written⟩ := Steps.except_ok_iff.mp formatted
  have semicolon : ';' ∉ (Text.hex 8 instruction.offset).toList :=
    Text.not_mem_hex (fun _ => (Nat.digitChar_ne ';' rfl).symm) (by decide) 8 instruction.offset
  -- The mark begins with a semicolon, and the offset, which comes first, has none.
  have head := congrArg List.head? (Except.ok.inj written)
  simp only [List.append_assoc, Text.ofString, Text.ofChars] at head
  cases digits : (Text.hex 8 instruction.offset).toList with
  | nil =>
      rw [digits] at head
      cases head
  | cons first rest =>
      rw [digits] at head semicolon
      cases head
      exact semicolon List.mem_cons_self

theorem messageLine_ne_truncationMark (offset : Int) (message : Text) :
    messageLine offset message ≠ truncationMark := by
  intro same
  have front := congrArg (List.take 3) same
  simp only [messageLine, List.append_assoc] at front
  rw [List.take_append_of_le_length (by decide)] at front
  exact absurd front (by decide)

theorem truncationMark_not_mem {instructions : List (Int × Instruction)} {shown : List Text}
    (formatted : (instructions.mapM fun entry => entry.2.format) = .ok shown)
    (messages : List (Int × Text)) :
    truncationMark ∉ shown ++ messages.map fun entry => messageLine entry.1 entry.2 := by
  intro member
  rcases List.mem_append.mp member with listed | noted
  · obtain ⟨entry, _, written⟩ :=
      exists_partner ((mapM_ok_iff _ _ _).mp formatted).flip listed
    exact format_ne_truncationMark written rfl
  · obtain ⟨entry, _, written⟩ := List.mem_map.mp noted
    exact messageLine_ne_truncationMark entry.1 entry.2 written

theorem room_iff (limit : Option Int) (count : Nat) :
    (∀ index < count, isUsedUp limit index = false) ↔
      ∀ most, limit = some most → (count : Int) ≤ max most 0 := by
  constructor
  · rintro room most rfl
    cases count with
    | zero => omega
    | succ count =>
        have last : ¬ most ≤ count := by simpa [isUsedUp] using room count (by omega)
        omega
  · intro fits index below
    cases limit with
    | none => rfl
    | some most =>
        have allowed := fits most rfl
        have free : ¬ most ≤ index := by omega
        simpa [isUsedUp] using free

/-- At the limit the lines end with the mark, if there are instructions left. -/
theorem instructionLines_cut {limit : Option Int} {kept dropped : List (Int × Instruction)}
    (room : ∀ index < kept.length, isUsedUp limit index = false)
    (usedUp : isUsedUp limit kept.length = true) (left : dropped ≠ []) :
    instructionLines limit 0 (kept ++ dropped) = do
      let shown ← kept.mapM fun entry => entry.2.format
      return shown ++ [truncationMark] := by
  rw [← Nat.zero_add kept.length] at room usedUp
  rw [instructionLines_append room dropped]
  cases dropped with
  | nil => exact (left rfl).elim
  | cons entry rest =>
      rw [instructionLines, usedUp]
      rfl

/-- A limit that is too small keeps the front, and nothing if it is negative. -/
theorem instructionLines_take {most : Int} {entries : List (Int × Instruction)}
    (beyond : max most 0 < (entries.length : Int)) :
    instructionLines (some most) 0 entries = do
      let shown ← (entries.take most.toNat).mapM fun entry => entry.2.format
      return shown ++ [truncationMark] := by
  have length : (entries.take most.toNat).length = most.toNat :=
    List.length_take_of_le (by omega)
  have room : ∀ index < (entries.take most.toNat).length, isUsedUp (some most) index = false := by
    rw [room_iff, length]
    rintro bound ⟨⟩
    omega
  have usedUp : isUsedUp (some most) (entries.take most.toNat).length = true := by
    rw [length]
    exact decide_eq_true (Int.self_le_toNat most)
  have left : entries.drop most.toNat ≠ [] := by
    rw [← List.length_pos_iff, List.length_drop]
    omega
  have cut := instructionLines_cut room usedUp left
  rwa [List.take_append_drop] at cut

/-- What a listing is made of: the lines of some instructions, the mark or nothing, and the lines
of some messages. No line but the mark reads like it. If one of the instructions has no line,
there is no listing. -/
structure Shows (instructions : List (Int × Instruction)) (mark : List Text)
    (messages : List (Int × Text)) (listing : Except RenderError Text) : Prop where
  made : listing = do
    let shown ← instructions.mapM fun entry => entry.2.format
    return Text.joinLines (shown ++ mark ++ messages.map fun entry => messageLine entry.1 entry.2)
  unmarked : ∀ shown, (instructions.mapM fun entry => entry.2.format) = .ok shown →
    truncationMark ∉ shown ++ messages.map fun entry => messageLine entry.1 entry.2

theorem Shows.of_instructionLines {limit : Option Int}
    {instructions kept : List (Int × Instruction)} {mark : List Text}
    (cut : instructionLines limit 0 (byOffset instructions) = do
      let shown ← kept.mapM fun entry => entry.2.format
      return shown ++ mark)
    (messages : List (Int × Text)) :
    Shows kept mark (byOffset messages) (text instructions messages limit) := by
  constructor
  · rw [text, lines, cut]
    simp only [bind_assoc, pure_bind]
  · intro shown formatted
    exact truncationMark_not_mem formatted (byOffset messages)

def shuffledInstructions : List (Int × Instruction) :=
  [(4, ⟨0x0051, "return", 4, false, [], 2⟩), (0, ⟨0x0001, "wait", 0, false, [.integer 5], 4⟩)]

def shuffledMessages : List (Int × Text) := [(0x1C, "lost"), (0x10, "unknown")]

end Listing
end ScriptAudit
