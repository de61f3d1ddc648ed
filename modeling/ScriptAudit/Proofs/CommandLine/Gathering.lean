import ScriptAudit.Proofs.CommandLine.Progress
import ScriptAudit.Proofs.Files.Outline
import ScriptAudit.Proofs.Resource.Store

/-!
What a run gathers from its inputs. Each input is met as the tree has it when the log is opened:
a directory is walked, and any other path is loaded by itself. In the meantime nothing changes but
the log. So where the log is none of the files, the run meets just what was there; else it meets
the same paths in the same order, and only what it reads from the log is what the log held then.
-/
namespace ScriptAudit

namespace Visit

def resources (table : Table) (visit : Visit) : List Resource :=
  (Loader.visit { table } visit).2.1

theorem resources_eq (loader : Loader) (visit : Visit) :
    (loader.visit visit).2.1 = visit.resources loader.table := by
  have same : loader.table = (Loader.mk loader.table []).table := rfl
  exact congrArg Prod.fst (Loader.visit_of_table same visit)

theorem outline_refresh (tree : Node) (visit : Visit) :
    (visit.refresh tree).outline = visit.outline := by
  cases visit with
  | file path bytes =>
      simp only [refresh]
      cases tree.readFile path <;> rfl
  | _ => rfl

theorem refresh_outline (tree : Node) (visit : Visit) :
    visit.outline.refresh tree.outline = visit.outline := by
  cases visit with
  | file path bytes =>
      simp only [outline, refresh, Node.readFile_outline]
      cases tree.readFile path <;> rfl
  | _ => rfl

end Visit

namespace Loader

theorem foldl_keep_table (loader : Loader) (resources : List Resource) :
    (resources.foldl keep loader).table = loader.table := by
  induction resources generalizing loader with
  | nil => rfl
  | cons resource rest ih => exact ih (loader.keep resource)

/-- Loading a path by itself is a visit to what is there. -/
theorem kept_loadPath (loader : Loader) (root : Node) (path : Path) :
    kept (loader.loadPath root path).1 =
      match root.readFile path with
      | .ok bytes => (Visit.file path bytes).resources loader.table
      | .error error => (Visit.refused path error).resources loader.table := by
  cases read : root.readFile path with
  | ok bytes =>
      simp only [loadPath, loader.openFile_of_read read, Visit.resources, Loader.visit]
      cases Resource.ofFile loader.table path bytes <;> rfl
  | error error =>
      simp only [loadPath, openFile, read]
      cases ResourceKind.ofSuffix path.suffix <;> rfl

end Loader

namespace Session

def stops (tree : Node) (path : Path) : List Visit :=
  match tree.readDirectory path with
  | .ok entries => (Visit.walk path entries).map (Visit.refresh tree)
  | .error _ =>
    match tree.readFile path with
    | .ok bytes => [.file path bytes]
    | .error error => [.refused path error]

theorem stops_outline (tree : Node) (path : Path) :
    stops tree.outline path = (stops tree path).map Visit.outline := by
  unfold stops
  rw [Node.readDirectory_outline, Node.readFile_outline]
  cases tree.readDirectory path with
  | ok entries =>
      simp only [Except.map, Visit.walk_outline, List.map_map]
      apply List.map_congr_left
      intro visit _
      simp only [Function.comp_apply, Visit.refresh_outline, Visit.outline_refresh]
  | error error => cases tree.readFile path <;> rfl

def Silent {α : Type} (run : Run α) : Prop :=
  ∀ before value after, run before = .ok value after → after.out = before.out

theorem record_out (session : Session) (events : List Event) :
    (session.record events).out = session.out := by
  unfold record
  split <;> rfl

namespace Silent

variable {α β : Type}

theorem bind {run : Run α} {next : α → Run β} (first : Silent run)
    (second : ∀ value, Silent (next value)) : Silent (run >>= next) := by
  intro before value after ran
  obtain ⟨between, middle, ranFirst, ranSecond⟩ := Steps.bind_ok_iff.mp ran
  exact (second between middle value after ranSecond).trans
    (first before between middle ranFirst)

theorem pure (value : α) : Silent (Pure.pure value) := by
  intro before value after ran
  cases ran
  rfl

theorem get : Silent (MonadState.get : Run Session) := by
  intro before value after ran
  cases ran
  rfl

theorem orFile (result : Except FileError α) : Silent (Session.orFile result) := by
  intro before value after ran
  obtain ⟨-, rfl⟩ := orHalt_ok ran
  rfl

theorem modify {change : Session → Session}
    (quiet : ∀ session, (change session).out = session.out) :
    Silent (MonadStateOf.modifyGet fun session => ((), change session) : Run Unit) := by
  intro before value after ran
  cases ran
  exact quiet before

theorem log (events : List Event) : Silent (Session.log events) :=
  modify fun session => record_out session events

theorem openLog (file : Option Path) : Silent (Session.openLog file) := by
  cases file with
  | none => exact pure ()
  | some path =>
      exact get.bind fun _ => (orFile _).bind fun _ => get.bind fun _ => (orFile _).bind fun _ =>
        modify fun _ => rfl

end Silent

/-- Since the log was opened, nothing has changed but the log. -/
structure Since (opened session : Session) : Prop where
  logging : Logging session
  advances : Advances (fun _ => False) opened session
  outline : session.tree.outline = opened.tree.outline
  silent : opened.logPlace = none → session.tree = opened.tree

namespace Since

variable {opened session : Session}

theorem refl (logging : Logging opened) : Since opened opened :=
  ⟨logging, Advances.refl _ _, rfl, fun _ => rfl⟩

theorem print (since : Since opened session) (text : Text) :
    Since opened { session with out := session.out ++ text } where
  logging := since.logging
  advances := ⟨since.advances.logPlace, since.advances.tree⟩
  outline := since.outline
  silent := since.silent

theorem record (since : Since opened session) (events : List Event) :
    Since opened (session.record events) where
  logging := (record_advances since.logging events).logging since.logging
  advances := since.advances.trans (record_advances since.logging events)
  outline := by
    rw [← since.outline]
    unfold Session.record
    cases log : session.logPlace with
    | none => rfl
    | some place =>
        obtain ⟨-, bytes, held⟩ := since.logging place log
        exact Node.outline_writeAt held _
  silent := by
    intro none
    rw [← since.silent none]
    unfold Session.record
    rw [since.advances.logPlace, none]

/-- A file that can be read stays so, and holds what it held unless it is the log. -/
theorem readFile (since : Since opened session) {path : Path} {held : Bytes}
    (read : opened.tree.readFile path = .ok held) :
    ∃ bytes, session.tree.readFile path = .ok bytes ∧
      (bytes = held ∨ ∃ place, opened.logPlace = some place ∧ opened.tree.Leads path place) := by
  obtain ⟨names, place, settled, located, there⟩ :=
    (Node.resolve_ok_iff _ _ _).mp ((Node.readFile_ok_iff _ _ _).mp read)
  have leads : opened.tree.Leads path place := ⟨names, settled, located⟩
  have still := leads.keep since.advances.tree
  by_cases log : opened.logPlace = some place
  · obtain ⟨bytes, now⟩ := since.advances.tree.file there
    exact ⟨bytes, (still.readFile_iff bytes).mpr now, Or.inr ⟨place, log, leads⟩⟩
  · have now := since.advances.tree.files place held (by simpa using log) there
    exact ⟨held, (still.readFile_iff held).mpr now, Or.inl rfl⟩

end Since

/-- What was met, compared with what there was to meet when the log was opened. -/
structure Visited (opened : Session) (expected met : List Visit) : Prop where
  order : met.map Visit.outline = expected.map Visit.outline
  bytes : ∀ path bytes held, .file path bytes ∈ met → opened.tree.readFile path = .ok held →
    bytes = held ∨ ∃ place, opened.logPlace = some place ∧ opened.tree.Leads path place
  exact : opened.logPlace = none → met = expected

namespace Visited

variable {opened session : Session} {expected met : List Visit}

theorem nil (opened : Session) : Visited opened [] [] :=
  ⟨rfl, fun _ _ _ member => (List.not_mem_nil member).elim, fun _ => rfl⟩

theorem append {further later : List Visit} (first : Visited opened expected met)
    (second : Visited opened further later) :
    Visited opened (expected ++ further) (met ++ later) where
  order := by rw [List.map_append, List.map_append, first.order, second.order]
  bytes := by
    intro path bytes held member read
    rcases List.mem_append.mp member with early | late
    · exact first.bytes path bytes held early read
    · exact second.bytes path bytes held late read
  exact none := by rw [first.exact none, second.exact none]

/-- A file is looked at again when its turn comes. -/
theorem refresh (since : Since opened session) (visit : Visit) :
    Visited opened [visit.refresh opened.tree] [visit.refresh session.tree] where
  order := by simp only [List.map_cons, List.map_nil, Visit.outline_refresh]
  bytes := by
    intro path bytes held member read
    obtain ⟨now, readNow, same⟩ := since.readFile read
    have found := List.mem_singleton.mp member
    cases visit with
    | file other old =>
        have paths : path = other := by
          have outlines := congrArg Visit.outline found
          rw [Visit.outline_refresh] at outlines
          simp only [Visit.outline, Visit.file.injEq, and_true] at outlines
          exact outlines
        subst paths
        simp only [Visit.refresh, readNow, Visit.file.injEq, true_and] at found
        exact found ▸ same
    | _ => cases found
  exact none := by rw [since.silent none]

/-- What there is to meet may be told from the tree as it is later. -/
theorem of_since (since : Since opened session) {path : Path}
    (visited : Visited opened expected met)
    (order : expected.map Visit.outline = (stops session.tree path).map Visit.outline)
    (exact : opened.logPlace = none → expected = stops session.tree path) :
    Visited opened (stops opened.tree path) met where
  order := by
    rw [visited.order, order, ← stops_outline, ← stops_outline, since.outline]
  bytes := visited.bytes
  exact none := by rw [visited.exact none, exact none, since.silent none]

theorem file (since : Since opened session) {path : Path} {error : FileError}
    (noDirectory : session.tree.readDirectory path = .error error) :
    Visited opened (stops opened.tree path) (stops session.tree path) where
  order := by rw [← stops_outline, ← stops_outline, since.outline]
  bytes := by
    intro other bytes held member read
    simp only [stops, noDirectory] at member
    cases now : session.tree.readFile path with
    | error error =>
        rw [now] at member
        cases List.mem_singleton.mp member
    | ok content =>
        rw [now] at member
        cases List.mem_singleton.mp member
        obtain ⟨_, again, same⟩ := since.readFile read
        cases now.symm.trans again
        exact same
  exact none := by rw [since.silent none]

end Visited

def refusal (failure : Path × LoadFailure) : Text :=
  failure.1.text ++ ": unable to load (" ++ failure.2.message failure.1 ++ ")"

structure Gathers (opened : Session) (expected met : List Visit)
    (failures : List (Path × LoadFailure)) (loader : Loader) (before : Session)
    (result : Loader × List Resource) (after : Session) : Prop where
  visited : Visited opened expected met
  resources : result.2 = met.flatMap (Visit.resources loader.table)
  loader : result.1 = result.2.foldl Loader.keep loader
  since : Since opened after
  out : after.out = before.out ++ Text.ofLines (failures.map refusal)

namespace Gathers

variable {opened before middle after : Session} {expected further met later : List Visit}
  {failures more : List (Path × LoadFailure)} {loader : Loader}
  {first second : Loader × List Resource}

theorem append (one : Gathers opened expected met failures loader before first middle)
    (other : Gathers opened further later more first.1 middle second after) :
    Gathers opened (expected ++ further) (met ++ later) (failures ++ more) loader before
      (second.1, first.2 ++ second.2) after where
  visited := one.visited.append other.visited
  resources := by
    have table : first.1.table = loader.table := by
      rw [one.loader, Loader.foldl_keep_table]
    simp only [one.resources, other.resources, table, List.flatMap_append]
  loader := by
    rw [other.loader, one.loader, List.foldl_append]
  since := other.since
  out := by
    rw [other.out, one.out, List.append_assoc]
    simp only [Text.ofLines, List.map_append, List.flatMap_append]

end Gathers

theorem walkAll_ok {opened before after : Session} {loader : Loader} {visits : List Visit}
    {result : Loader × List Resource} (since : Since opened before)
    (ran : walkAll loader visits before = .ok result after) :
    ∃ met, Gathers opened (visits.map (Visit.refresh opened.tree)) met [] loader before result
      after := by
  induction visits generalizing loader before result with
  | nil =>
      cases ran
      exact ⟨[], Visited.nil opened, rfl, rfl, since, (List.append_nil _).symm⟩
  | cons visit rest ih =>
      obtain ⟨_, _, got, logging⟩ := Steps.bind_ok_iff.mp ran
      cases got
      obtain ⟨_, middle, logged, further⟩ := Steps.bind_ok_iff.mp logging
      obtain ⟨more, _, walked, last⟩ := Steps.bind_ok_iff.mp further
      cases last
      cases logged
      -- The first visit is made in the session as it is, the others in what its log entries leave.
      have step : Gathers opened [visit.refresh opened.tree] [visit.refresh before.tree] [] loader
          before ((loader.visit (visit.refresh before.tree)).1,
            (loader.visit (visit.refresh before.tree)).2.1)
          (before.record (loader.visit (visit.refresh before.tree)).2.2) := by
        refine ⟨Visited.refresh since visit, ?_, ?_, since.record _, ?_⟩
        · rw [List.flatMap_singleton, ← Visit.resources_eq]
        · exact Loader.visit_keeps loader _
        · rw [record_out]
          exact (List.append_nil _).symm
      obtain ⟨met, gathers⟩ := ih (since.record _) walked
      exact ⟨_, step.append gathers⟩

theorem collectPath_ok {opened before after : Session} {loader : Loader} {path : Path}
    {result : Loader × List Resource} (since : Since opened before)
    (ran : collectPath loader path before = .ok result after) :
    ∃ met failures, Gathers opened (stops opened.tree path) met failures loader before result
      after ∧ (failures.map Prod.fst).Sublist [path] := by
  obtain ⟨_, _, got, further⟩ := Steps.bind_ok_iff.mp ran
  cases got
  dsimp only at further
  cases listed : before.tree.readDirectory path with
  | ok entries =>
      rw [listed] at further
      obtain ⟨met, gathers⟩ := walkAll_ok since further
      -- The walk was laid out in the tree as it is by now, which has the same outline.
      have visited : Visited opened (stops opened.tree path) met := by
        apply gathers.visited.of_since since
        · simp only [stops, listed, List.map_map]
          apply List.map_congr_left
          intro visit _
          simp only [Function.comp_apply, Visit.outline_refresh]
        · intro none
          rw [← since.silent none]
          simp only [stops, listed]
      exact ⟨met, [], ⟨visited, gathers.resources, gathers.loader, gathers.since, gathers.out⟩,
        List.nil_sublist _⟩
  | error error =>
      rw [listed] at further
      obtain ⟨_, middle, logged, last⟩ := Steps.bind_ok_iff.mp further
      cases logged
      have visited := Visited.file since listed
      have resources : Loader.kept (loader.loadPath before.tree path).1 =
          (stops before.tree path).flatMap (Visit.resources loader.table) := by
        rw [Loader.kept_loadPath]
        simp only [stops, listed]
        cases before.tree.readFile path <;> rw [List.flatMap_singleton]
      have keeps : (loader.loadPath before.tree path).2.1 =
          (Loader.kept (loader.loadPath before.tree path).1).foldl Loader.keep loader :=
        loader.answer_keeps (.file before.tree path)
      cases loaded : (loader.loadPath before.tree path).1 with
      | ok given =>
          rw [loaded] at last keeps resources
          cases last
          refine ⟨_, [], ⟨visited, resources, keeps, since.record _, ?_⟩, List.nil_sublist _⟩
          exact (record_out before _).trans (List.append_nil _).symm
      | error failure =>
          rw [loaded] at last keeps resources
          obtain ⟨_, _, printed, final⟩ := Steps.bind_ok_iff.mp last
          cases printed
          cases final
          refine ⟨_, [(path, failure)], ⟨visited, resources, keeps, (since.record _).print _, ?_⟩,
            List.Sublist.refl _⟩
          exact congrArg (· ++ Text.ofLines [refusal (path, failure)]) (record_out before _)

theorem collect_ok {opened before after : Session} {loader : Loader} {inputs : List Path}
    {result : Loader × List Resource} (since : Since opened before)
    (ran : collect loader inputs before = .ok result after) :
    ∃ met failures, Gathers opened (inputs.flatMap (stops opened.tree)) met failures loader before
      result after ∧ (failures.map Prod.fst).Sublist inputs := by
  induction inputs generalizing loader before result with
  | nil =>
      cases ran
      exact ⟨[], [], ⟨Visited.nil opened, rfl, rfl, since, (List.append_nil _).symm⟩,
        List.nil_sublist _⟩
  | cons path rest ih =>
      obtain ⟨first, middle, collected, further⟩ := Steps.bind_ok_iff.mp ran
      obtain ⟨more, _, others, last⟩ := Steps.bind_ok_iff.mp further
      cases last
      obtain ⟨met, failures, gathers, here⟩ := collectPath_ok since collected
      obtain ⟨later, complaints, gathersMore, behind⟩ := ih gathers.since others
      refine ⟨met ++ later, failures ++ complaints, gathers.append gathersMore, ?_⟩
      rw [List.map_append]
      exact here.append behind

def Chosen (tree : Node) (table : Table) : Option (Given Path) → Prop
  | none => table = .bundled
  | some (.value path) => schemaAt tree path = .ok table
  | some .dashes => False

theorem requireInputs_ok {inputs : List Path} {before after : Session}
    (ran : requireInputs inputs before = .ok () after) :
    (∀ path ∈ inputs, ∃ node, before.tree.resolve path = .ok node) ∧ before = after := by
  induction inputs with
  | nil =>
      cases ran
      exact ⟨fun _ member => (List.not_mem_nil member).elim, rfl⟩
  | cons path rest ih =>
      obtain ⟨_, _, got, asked⟩ := Steps.bind_ok_iff.mp ran
      cases got
      obtain ⟨held, _, found, further⟩ := Steps.bind_ok_iff.mp asked
      obtain ⟨holds, rfl⟩ := orHalt_ok found
      cases held with
      | false => cases further
      | true =>
          obtain ⟨others, same⟩ := ih further
          exact ⟨List.forall_mem_cons.mpr ⟨Node.holds_iff.mp holds, others⟩, same⟩

theorem chooseTable_ok {given : Option (Given Path)} {table : Table} {before after : Session}
    (ran : chooseTable given before = .ok table after) :
    Chosen before.tree table given ∧ before = after := by
  cases given with
  | none =>
      -- The bundled table is large, and must not be compared by its commands.
      simp only [chooseTable, pure, EStateM.pure, EStateM.Result.ok.injEq] at ran
      exact ⟨ran.1.symm, ran.2⟩
  | some given =>
      cases given with
      | dashes => cases ran
      | value path =>
          obtain ⟨_, _, got, further⟩ := Steps.bind_ok_iff.mp ran
          cases got
          cases read : schemaAt before.tree path with
          | ok found =>
              rw [read] at further
              cases further
              exact ⟨read, rfl⟩
          | error error =>
              rw [read] at further
              cases error <;> cases further

theorem requireValues_ok {switch : Switch} {given : List (Given Text)} {before after : Session}
    (ran : requireValues switch given before = .ok () after) :
    given.any Given.isDashes = false ∧ before = after := by
  unfold requireValues at ran
  cases all : given.any Given.isDashes with
  | true =>
      rw [all] at ran
      cases ran
  | false =>
      rw [all] at ran
      cases ran
      exact ⟨rfl, rfl⟩

def lookedUp (table : Table) (options : Options) : Text :=
  Lookup.commandText table (Given.leading options.describe) ++
    Lookup.cheatText (Given.leading options.cheat)

theorem lookUp_ok {table : Table} {options : Options} {known : Bool} {before after : Session}
    (ran : lookUp table options before = .ok known after) :
    options.describe.any Given.isDashes = false ∧ options.cheat.any Given.isDashes = false ∧
      known = (Lookup.unknownCommands table (Given.leading options.describe) = 0 &&
        Lookup.unknownCheats (Given.leading options.cheat) = 0) ∧
      after = { before with out := before.out ++ lookedUp table options } := by
  obtain ⟨_, _, printed, asked⟩ := Steps.bind_ok_iff.mp ran
  cases printed
  obtain ⟨_, _, required, further⟩ := Steps.bind_ok_iff.mp asked
  obtain ⟨tokens, rfl⟩ := requireValues_ok required
  obtain ⟨_, _, printed, asked⟩ := Steps.bind_ok_iff.mp further
  cases printed
  obtain ⟨_, _, required, last⟩ := Steps.bind_ok_iff.mp asked
  obtain ⟨codes, rfl⟩ := requireValues_ok required
  cases last
  exact ⟨tokens, codes, rfl, by simp only [lookedUp, List.append_assoc]⟩

structure Gathered (options : Options) (opened : Session) (collected : Collected)
    (met : List Visit) (failures : List (Path × LoadFailure)) : Prop where
  chosen : Chosen opened.tree collected.table options.commands
  tokens : options.describe.any Given.isDashes = false
  codes : options.cheat.any Given.isDashes = false
  known : collected.known =
    (Lookup.unknownCommands collected.table (Given.leading options.describe) = 0 &&
      Lookup.unknownCheats (Given.leading options.cheat) = 0)
  present : ∀ path ∈ options.inputs, ∃ node, opened.tree.resolve path = .ok node
  visited : Visited opened (options.inputs.flatMap (stops opened.tree)) met
  resources : collected.resources = met.flatMap (Visit.resources collected.table)
  loader : collected.loader = collected.resources.foldl Loader.keep { table := collected.table }
  refused : (failures.map Prod.fst).Sublist options.inputs

theorem gather_ok {options : Options} {tree : Node} {base : Path} {collected : Collected}
    {after : Session} (gathered : gather options { tree, base } = .ok collected after) :
    ∃ opened met failures,
      openLog options.logFile { tree, base, level := levelOf options.verbose } = .ok () opened ∧
      Gathered options opened collected met failures ∧ Since opened after ∧
      after.out = lookedUp collected.table options ++ Text.ofLines (failures.map refusal) := by
  obtain ⟨_, _, set, opening⟩ := Steps.bind_ok_iff.mp gathered
  cases set
  obtain ⟨_, opened, openedLog, requiring⟩ := Steps.bind_ok_iff.mp opening
  have logging := openLog_logging rfl openedLog
  obtain ⟨_, _, required, choosing⟩ := Steps.bind_ok_iff.mp requiring
  obtain ⟨present, rfl⟩ := requireInputs_ok required
  obtain ⟨table, _, chose, looking⟩ := Steps.bind_ok_iff.mp choosing
  obtain ⟨chosen, rfl⟩ := chooseTable_ok chose
  obtain ⟨known, _, looked, collecting⟩ := Steps.bind_ok_iff.mp looking
  obtain ⟨tokens, codes, all, rfl⟩ := lookUp_ok looked
  obtain ⟨result, _, collected, last⟩ := Steps.bind_ok_iff.mp collecting
  cases last
  obtain ⟨met, failures, gathers, refused⟩ :=
    collect_ok ((Since.refl logging).print (lookedUp table options)) collected
  refine ⟨opened, met, failures, openedLog,
    ⟨chosen, tokens, codes, all, present, gathers.visited, gathers.resources, gathers.loader,
      refused⟩, gathers.since, ?_⟩
  have silent : opened.out = [] := Silent.openLog options.logFile _ () opened openedLog
  rw [gathers.out, silent, List.nil_append]

theorem gather_logging {options : Options} {tree : Node} {base : Path} {collected : Collected}
    {after : Session} (gathered : gather options { tree, base } = .ok collected after) :
    Logging after := by
  obtain ⟨_, _, _, _, _, since, _⟩ := gather_ok gathered
  exact since.logging

end Session

end ScriptAudit
