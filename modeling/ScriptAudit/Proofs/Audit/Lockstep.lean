import ScriptAudit.Proofs.Audit.Program
import ScriptAudit.Proofs.Audit.Queue
import ScriptAudit.Proofs.Script.Locality

/-!
Two scripts explored side by side. A search looks only at reachable offsets, so scripts that
decode alike there, up to a change of the instructions that leaves their successors alone, are
searched in lockstep and have the same graph up to that change. In particular the bytes that
no visited instruction reads do not matter: whatever they are, the graph, the log and the
verdict are the same.
-/
namespace ScriptAudit

def Graph.relabel (change : Instruction → Instruction) (graph : Graph) : Graph :=
  { graph with instructions := graph.instructions.map fun entry => (entry.1, change entry.2) }

namespace Graph

theorem visited_relabel (change : Instruction → Instruction) (graph : Graph) (offset : Int) :
    (graph.relabel change).visited offset = graph.visited offset := by
  simp only [visited, decoded, failed, relabel, List.any_map]
  rfl

theorem relabel_addInstruction (change : Instruction → Instruction) (graph : Graph)
    (offset : Int) (instruction : Instruction) :
    (graph.addInstruction offset instruction).relabel change =
      (graph.relabel change).addInstruction offset (change instruction) := by
  simp [relabel, addInstruction]

theorem relabel_id (graph : Graph) : graph.relabel id = graph := by
  simp [relabel]

theorem offsets_relabel (change : Instruction → Instruction) (graph : Graph) :
    (graph.relabel change).instructions.map Prod.fst = graph.instructions.map Prod.fst := by
  simp [relabel]

theorem edges_relabel {change : Instruction → Instruction}
    (keeps : ∀ instruction, (change instruction).successors = instruction.successors)
    (graph : Graph) : (graph.relabel change).edges = graph.edges := by
  simp [edges, relabel, keeps]

/-- The verdict and its record look at the opcode and the offset of an instruction only. -/
theorem classify_relabel {change : Instruction → Instruction}
    (opcodes : ∀ instruction, (change instruction).opcode = instruction.opcode)
    (offsets : ∀ instruction, (change instruction).offset = instruction.offset)
    (graph : Graph) : (graph.relabel change).classify = graph.classify := by
  have first : (graph.relabel change).firstIssue? =
      graph.firstIssue?.map fun found => (change found.1, found.2) := by
    simp only [firstIssue?, relabel, List.findSome?_map, List.map_findSome?]
    congr 1
    funext entry
    simp only [Function.comp_apply, opcodes, Option.map_map]
    rfl
  unfold classify
  rw [first]
  cases graph.firstIssue? with
  | none => rfl
  | some found => simp only [Option.map_some, opcodes, offsets]

end Graph

namespace Search

variable {table : Table} {data : Bytes}

def relabel (change : Instruction → Instruction) (search : Search) : Search :=
  { search with graph := search.graph.relabel change }

theorem queue_reachable (table : Table) (data : Bytes) (steps : Nat) :
    ∀ offset ∈ (after table data steps).queue, Reachable table data offset := by
  induction steps with
  | zero =>
      intro offset member
      rw [List.mem_singleton.mp member]
      exact Reachable.entry
  | succ steps ih =>
      rw [after_succ]
      unfold step
      cases head : (after table data steps).queue with
      | nil => exact ih
      | cons offset rest =>
          rw [head] at ih
          have tail : ∀ other ∈ rest, Reachable table data other :=
            fun other member => ih other (List.mem_cons_of_mem offset member)
          by_cases seen : (after table data steps).graph.visited offset = true
          · simp only [seen, ↓reduceIte]
            exact tail
          · simp only [seen, Bool.false_eq_true, ↓reduceIte]
            cases decoded : Instruction.decode table data offset with
            | error error => exact tail
            | ok instruction =>
                intro target member
                rcases List.mem_append.mp member with waiting | edge
                · exact tail target waiting
                · exact Reachable.follow (ih offset List.mem_cons_self) decoded edge

theorem step_relabel {other : Table} {bytes : Bytes} {change : Instruction → Instruction}
    (keeps : ∀ instruction, (change instruction).successors = instruction.successors)
    (search : Search)
    (alike : ∀ offset ∈ search.queue, Instruction.decode other bytes offset =
      (Instruction.decode table data offset).map change) :
    (search.relabel change).step other bytes = (search.step table data).relabel change := by
  obtain ⟨graph, warnings, queue⟩ := search
  cases queue with
  | nil => rfl
  | cons offset rest =>
      -- The change does not touch what was visited, so both sides take the same branch.
      have same := alike offset List.mem_cons_self
      simp only [step, relabel, Graph.visited_relabel, same]
      by_cases seen : graph.visited offset = true
      · simp only [seen, ↓reduceIte]
      · cases Instruction.decode table data offset with
        | error error =>
            simp only [seen, Bool.false_eq_true, ↓reduceIte, Except.map]
            rfl
        | ok instruction =>
            simp only [seen, Bool.false_eq_true, ↓reduceIte, Except.map, keeps,
              Graph.relabel_addInstruction]

/-- Searches that decode alike at the reachable offsets of one of them go in lockstep. -/
theorem after_relabel {other : Table} {bytes : Bytes} {change : Instruction → Instruction}
    (keeps : ∀ instruction, (change instruction).successors = instruction.successors)
    (alike : ∀ offset, Reachable table data offset → Instruction.decode other bytes offset =
      (Instruction.decode table data offset).map change) (steps : Nat) :
    after other bytes steps = (after table data steps).relabel change := by
  induction steps with
  | zero => rfl
  | succ steps ih =>
      rw [after_succ, after_succ, ih]
      apply step_relabel keeps
      intro offset member
      exact alike offset (queue_reachable table data steps offset member)

end Search

/-- Scripts that decode alike at the reachable offsets of one of them have the same graph, up
to the change of the instructions, and the same log. -/
theorem explore_relabel {table other : Table} {data bytes : Bytes}
    {change : Instruction → Instruction}
    (keeps : ∀ instruction, (change instruction).successors = instruction.successors)
    (alike : ∀ offset, Reachable table data offset → Instruction.decode other bytes offset =
      (Instruction.decode table data offset).map change) :
    explore other bytes = ((explore table data).1.relabel change, (explore table data).2) := by
  obtain ⟨steps, ended⟩ := Search.exists_ended table data
  have lockstep := Search.after_relabel keeps alike steps
  have alsoEnded : (Search.after other bytes steps).queue = [] := by
    rw [lockstep]
    exact ended
  rw [Search.after_eq_run ended, Search.after_eq_run alsoEnded] at lockstep
  have graph : (Exploration.run other bytes).graph =
      (Exploration.run table data).graph.relabel change := congrArg Search.graph lockstep
  have events : (Exploration.run other bytes).events = (Exploration.run table data).events :=
    congrArg Search.warnings lockstep
  simp [explore, graph, events, Graph.relabel]

theorem checkStrict_relabel {table other : Table} {data bytes : Bytes}
    {change : Instruction → Instruction}
    (explored : explore other bytes =
      ((explore table data).1.relabel change, (explore table data).2))
    (opcodes : ∀ instruction, (change instruction).opcode = instruction.opcode)
    (offsets : ∀ instruction, (change instruction).offset = instruction.offset) :
    checkStrict other (.bytes bytes) = checkStrict table (.bytes data) := by
  simp only [checkStrict, checkBytes, explored, Graph.classify_relabel opcodes offsets]

/-- Bytes that no visited offset reads do not matter. If data of one size agree from each
visited offset up to where reading there stops, then both have the same instructions, edges,
failures and log, in the same order, and the same verdict. -/
theorem explore_of_windows (table : Table) (data other : Bytes)
    (size : other.length = data.length)
    (agree : ∀ start position : Nat, (explore table data).1.visited start = true →
      start ≤ position → position < Instruction.windowEnd table data start →
      other[position]? = data[position]?) :
    (explore table other).1.instructions = (explore table data).1.instructions ∧
    (explore table other).1.edges = (explore table data).1.edges ∧
    (explore table other).1.failures = (explore table data).1.failures ∧
    (explore table other).2 = (explore table data).2 ∧
    checkStrict table (.bytes other) = checkStrict table (.bytes data) := by
  have alike : ∀ offset, Reachable table data offset →
      Instruction.decode table other offset = (Instruction.decode table data offset).map id := by
    intro offset reachable
    obtain ⟨_, route⟩ := reachable.route
    have seen := (Exploration.run_visited_iff table data offset).mpr reachable
    -- Control never leaves to the left, so the offset is the start of a window.
    obtain ⟨start, rfl⟩ := Int.eq_ofNat_of_zero_le route.nonneg
    rw [Except.map_id, id]
    exact Instruction.decode_of_window table start size fun position => agree start position seen
  have same : explore table other = explore table data := by
    rw [@explore_relabel table table data other id (fun _ => rfl) alike, Graph.relabel_id]
  simp only [checkStrict, checkBytes, same, and_self]

/-- A jump over a byte to an offset without a command, and a byte behind it. -/
def leapBytes (skipped last : UInt8) : Bytes :=
  [0x4D, 0x00, 0x01, 0xF6, 0xFF, 0xFF, 0xFF, 0x51, 0x00, skipped, 0xFF, 0x7F, last]

theorem leapBytes_visited (offset : Int)
    (seen : (explore waitTable (leapBytes 0x00 0x00)).1.visited offset = true) :
    offset ∈ [0, 7, 10] := by
  have decoded : (explore waitTable (leapBytes 0x00 0x00)).1.instructions.map Prod.fst =
      [0, 7] := by decide +kernel
  have failed : (explore waitTable (leapBytes 0x00 0x00)).1.failures.map Prod.fst = [10] := by
    decide +kernel
  have listed := Graph.mem_offsets_of_visited seen
  rw [decoded, failed] at listed
  exact listed

theorem leapBytes_alike :
    leapBytes 0xAA 0xBB ≠ leapBytes 0x00 0x00 ∧
    (explore waitTable (leapBytes 0xAA 0xBB)).1.instructions =
      (explore waitTable (leapBytes 0x00 0x00)).1.instructions ∧
    (explore waitTable (leapBytes 0xAA 0xBB)).1.edges =
      (explore waitTable (leapBytes 0x00 0x00)).1.edges ∧
    (explore waitTable (leapBytes 0xAA 0xBB)).1.failures =
      (explore waitTable (leapBytes 0x00 0x00)).1.failures ∧
    (explore waitTable (leapBytes 0xAA 0xBB)).2 = (explore waitTable (leapBytes 0x00 0x00)).2 ∧
    checkStrict waitTable (.bytes (leapBytes 0xAA 0xBB)) =
      checkStrict waitTable (.bytes (leapBytes 0x00 0x00)) := by
  refine ⟨by decide, explore_of_windows waitTable _ _ rfl ?_⟩
  -- The windows end at 7, 9 and 12, so they leave out the bytes at 9 and 12.
  have windows : ∀ start ∈ [0, 7, 10], ∀ position <
      Instruction.windowEnd waitTable (leapBytes 0x00 0x00) start, start ≤ position →
      (leapBytes 0xAA 0xBB)[position]? = (leapBytes 0x00 0x00)[position]? := by decide +kernel
  intro start position seen behind before
  have listed : start ∈ [0, 7, 10] := by
    have place := leapBytes_visited start seen
    simp only [List.mem_cons, List.not_mem_nil, or_false] at place ⊢
    omega
  exact windows start listed position before behind

end ScriptAudit
