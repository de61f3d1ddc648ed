import ScriptAudit.Proofs.Audit.Lockstep

/-!
The top bit of an opcode word. It inverts the result of an instruction and tells nothing about
its opcode or its arguments. So where no other instruction reads the byte with that bit, a
script with the bit flipped has the same graph, in which only the one instruction says the
opposite about its result, and the same verdict.
-/
namespace ScriptAudit

def flipTop (data : Bytes) (position : Nat) : Bytes := data.modify position (· ^^^ 0x80)

theorem toNat_flip (byte : UInt8) : (byte ^^^ 0x80).toNat = (byte.toNat + 0x80) % 0x100 := by
  have table : ∀ n < 0x100, n ^^^ 0x80 = (n + 0x80) % 0x100 := by decide +kernel
  rw [UInt8.toNat_xor]
  exact table byte.toNat byte.toNat_lt

namespace Instruction

def invert (instruction : Instruction) : Instruction :=
  { instruction with inverted := !instruction.inverted }

def invertAt (offset : Int) (instruction : Instruction) : Instruction :=
  if instruction.offset = offset then instruction.invert else instruction

theorem invertAt_successors (offset : Int) (instruction : Instruction) :
    (instruction.invertAt offset).successors = instruction.successors := by
  unfold invertAt
  split <;> rfl

theorem invertAt_opcode (offset : Int) (instruction : Instruction) :
    (instruction.invertAt offset).opcode = instruction.opcode := by
  unfold invertAt
  split <;> rfl

theorem invertAt_offset (offset : Int) (instruction : Instruction) :
    (instruction.invertAt offset).offset = instruction.offset := by
  unfold invertAt
  split <;> rfl

theorem decode_invertAt (table : Table) (data : Bytes) (offset start : Int) :
    (decode table data offset).map (invertAt start) =
      (decode table data offset).map (if offset = start then invert else id) := by
  cases decoded : decode table data offset with
  | error error => rfl
  | ok instruction =>
      have begins := decode_offset decoded
      by_cases here : offset = start <;> simp [Except.map, invertAt, begins, here]

theorem word_flip_opcode (low high : UInt8) :
    (word low (high ^^^ 0x80) : Int) % 0x8000 = (word low high : Int) % 0x8000 := by
  have lowBound := low.toNat_lt
  have highBound := high.toNat_lt
  simp only [word, toNat_flip]
  omega

theorem word_flip_inverted (low high : UInt8) :
    decide (0x8000 ≤ word low (high ^^^ 0x80)) = !decide (0x8000 ≤ word low high) := by
  have lowBound := low.toNat_lt
  have highBound := high.toNat_lt
  rw [← decide_not]
  apply decide_eq_decide.mpr
  simp only [word, toNat_flip]
  omega

theorem readFrom_flip_ok {table : Table} {offset : Int} {low high : UInt8}
    {behind rest : Bytes} {instruction : Instruction}
    (read : readFrom table offset (low :: high :: behind) = .ok instruction rest) :
    readFrom table offset (low :: (high ^^^ 0x80) :: behind) = .ok instruction.invert rest := by
  obtain ⟨_, _, _, command, args, whole, found, readArguments, rfl⟩ :=
    (readFrom_ok_iff _ _ _ _ _).mp read
  cases whole
  apply (readFrom_ok_iff _ _ _ _ _).mpr
  refine ⟨low, high ^^^ 0x80, behind, command, args, rfl, ?_, readArguments, ?_⟩
  · rw [word_flip_opcode]
    exact found
  · simp only [invert, word_flip_opcode, word_flip_inverted, List.length_cons]

theorem readBody_flip (table : Table) (low high : UInt8) (behind : Bytes) :
    readBody table (low :: (high ^^^ 0x80) :: behind) = readBody table (low :: high :: behind) := by
  have readWord : ∀ top : UInt8,
      Reader.unsigned 2 (low :: top :: behind) = .ok (word low top) behind := fun top =>
    word_recognizes.complete _ [low, top] behind ⟨low, top, rfl, rfl⟩
  unfold readBody
  rw [Reader.bind_of_ok (readWord _), Reader.bind_of_ok (readWord _), word_flip_opcode]

theorem drop_flipTop {data : Bytes} {start : Nat} (fits : start + 2 ≤ data.length) :
    ∃ (low high : UInt8) (behind : Bytes), data.drop start = low :: high :: behind ∧
      (flipTop data (start + 1)).drop start = low :: (high ^^^ 0x80) :: behind := by
  have long : 2 ≤ (data.drop start).length := by
    rw [List.length_drop]
    omega
  match front : data.drop start, long with
  | low :: high :: behind, _ =>
      refine ⟨low, high, behind, rfl, ?_⟩
      rw [flipTop, List.drop_modify_of_ge _ _ _ _ (Nat.le_add_right start 1), front,
        Nat.add_sub_cancel_left]
      rfl

/-- At the instruction itself the flipped bit is seen, and only its inversion changes. -/
theorem decode_flipTop (table : Table) {data : Bytes} {start : Nat}
    (fits : start + 2 ≤ data.length) :
    decode table (flipTop data (start + 1)) start = (decode table data start).map invert := by
  obtain ⟨low, high, behind, plain, flipped⟩ := drop_flipTop fits
  simp only [decode, read, EStateM.adaptExcept, Int.toNat_natCast, plain, flipped]
  cases done : readFrom table start (low :: high :: behind) with
  | ok instruction rest =>
      simp only [readFrom_flip_ok done]
      rfl
  | error fault rest =>
      have failed : readFrom table start (low :: (high ^^^ 0x80) :: behind) =
          .error fault rest := by
        rw [readFrom_error_iff, readBody_flip, ← readFrom_error_iff]
        exact done
      simp only [failed]
      rfl

/-- Elsewhere the flipped byte is not read. -/
theorem decode_flipTop_of_unread (table : Table) {data : Bytes} {position start : Nat}
    (unread : ¬ (start ≤ position ∧ position < windowEnd table data start)) :
    decode table (flipTop data position) start = decode table data start := by
  apply decode_of_window table start (List.length_modify _ _ _)
  intro other behind before
  have apart : position ≠ other := by
    rintro rfl
    exact unread ⟨behind, before⟩
  exact List.getElem?_modify_ne _ _ apart

end Instruction

/-- The inversion of a result hides nothing and changes nothing else. If no other visited
offset reads the top byte of the opcode word at an offset, then with its top bit flipped the
offsets and their order, the edges, the failures, the log and the verdict are the same, and so
are the instructions, but for the inversion of the one at the offset. -/
theorem explore_flipTop (table : Table) (data : Bytes) (start : Nat)
    (fits : start + 2 ≤ data.length)
    (alone : ∀ other : Nat, (explore table data).1.visited other = true → other ≠ start →
      ¬ (other ≤ start + 1 ∧ start + 1 < Instruction.windowEnd table data other)) :
    (explore table (flipTop data (start + 1))).1.instructions.map Prod.fst =
      (explore table data).1.instructions.map Prod.fst ∧
    (explore table (flipTop data (start + 1))).1.edges = (explore table data).1.edges ∧
    (explore table (flipTop data (start + 1))).1.failures = (explore table data).1.failures ∧
    (explore table (flipTop data (start + 1))).1.instructions =
      (explore table data).1.instructions.map (fun entry =>
        (entry.1, if entry.1 = (start : Int) then entry.2.invert else entry.2)) ∧
    (explore table (flipTop data (start + 1))).2 = (explore table data).2 ∧
    checkStrict table (.bytes (flipTop data (start + 1))) = checkStrict table (.bytes data) := by
  have alike : ∀ offset, Reachable table data offset →
      Instruction.decode table (flipTop data (start + 1)) offset =
        (Instruction.decode table data offset).map (Instruction.invertAt start) := by
    intro offset reachable
    obtain ⟨_, route⟩ := reachable.route
    have seen := (Exploration.run_visited_iff table data offset).mpr reachable
    obtain ⟨place, rfl⟩ := Int.eq_ofNat_of_zero_le route.nonneg
    rw [Instruction.decode_invertAt]
    by_cases here : place = start
    · subst here
      rw [if_pos rfl]
      exact Instruction.decode_flipTop table fits
    · rw [if_neg (by exact_mod_cast here), Except.map_id, id]
      exact Instruction.decode_flipTop_of_unread table (alone place seen here)
  have keeps := Instruction.invertAt_successors start
  have explored := explore_relabel keeps alike
  refine ⟨?_, ?_, ?_, ?_, ?_, ?_⟩
  · rw [explored, Graph.offsets_relabel]
  · rw [explored, Graph.edges_relabel keeps]
  · rw [explored]
    rfl
  · rw [explored]
    apply List.map_congr_left
    rintro ⟨offset, instruction⟩ member
    obtain ⟨_, decoded⟩ := (explore_mem_instructions_iff _ _ _ _).mp member
    simp only [Instruction.invertAt, Instruction.decode_offset decoded]
  · rw [explored]
  · exact checkStrict_relabel explored (Instruction.invertAt_opcode start)
      (Instruction.invertAt_offset start)

/-- A `wait` whose number holds the bytes of a return, to which a jump behind it leads. -/
def overlapBytes (flag : UInt8) : Bytes :=
  [0x01, 0x00, 0x01, 0x51, 0x00, 0x00, 0x00, 0x4D, flag, 0x01, 0xFD, 0xFF, 0xFF, 0xFF, 0x51, 0x00]

theorem overlapBytes_visited (offset : Int)
    (seen : (explore waitTable (overlapBytes 0x00)).1.visited offset = true) :
    offset ∈ [0, 7, 14, 3] := by
  have decoded : (explore waitTable (overlapBytes 0x00)).1.instructions.map Prod.fst =
      [0, 7, 14, 3] := by decide +kernel
  have failed : (explore waitTable (overlapBytes 0x00)).1.failures.map Prod.fst = [] := by
    decide +kernel
  have listed := Graph.mem_offsets_of_visited seen
  rw [decoded, failed] at listed
  exact listed

theorem overlapBytes_flipped :
    flipTop (overlapBytes 0x00) (7 + 1) = overlapBytes 0x80 ∧
    (explore waitTable (overlapBytes 0x00)).1.visited (7 : Nat) = true ∧
    (explore waitTable (overlapBytes 0x80)).1.instructions =
      (explore waitTable (overlapBytes 0x00)).1.instructions.map (fun entry =>
        (entry.1, if entry.1 = 7 then entry.2.invert else entry.2)) ∧
    checkStrict waitTable (.bytes (overlapBytes 0x80)) =
      checkStrict waitTable (.bytes (overlapBytes 0x00)) := by
  have flipped : flipTop (overlapBytes 0x00) (7 + 1) = overlapBytes 0x80 := by decide
  -- The windows are 0-7, 7-14, 14-16 and 3-5; the byte at 8 is in the second one only.
  have windows : ∀ start ∈ [0, 7, 14, 3], start ≠ 7 →
      ¬ (start ≤ 7 + 1 ∧ 7 + 1 < Instruction.windowEnd waitTable (overlapBytes 0x00) start) := by
    decide +kernel
  have result := explore_flipTop waitTable (overlapBytes 0x00) 7 (by decide) <| by
    intro start seen
    apply windows start
    have place := overlapBytes_visited start seen
    simp only [List.mem_cons, List.not_mem_nil, or_false] at place ⊢
    omega
  rw [flipped] at result
  exact ⟨flipped, by decide +kernel, result.2.2.2.1, result.2.2.2.2.2⟩

end ScriptAudit
