import ScriptAudit.Proofs.CommandLine.Gathering

/-!
The listings that a run writes. All go into one directory, each under the last name of its
script. So scripts of one name, from whichever directories, share a file, and the last of them
leaves its listing there. The others are found after the run exactly if they have the same
listing.
-/
namespace ScriptAudit.Session

def listingFile (script : LoadedScript) : Text :=
  Path.settleName (script.path.name ++ Text.ofString ".lst")

def limitOf : Option (Given Int) → Option Int
  | some (.value most) => some most
  | _ => none

def listing? (table : Table) (limit : Option Int) (script : LoadedScript) : Option Bytes :=
  match Listing.ofGraph (explore table script.data).1 limit with
  | .ok text => text.toUtf8.toOption
  | .error _ => none

structure Placed (tree : Node) (directory : Path) (script : LoadedScript) (place : List Text) :
    Prop where
  inside : ∃ parent, tree.locate (directory.names.map Path.settleName) = .ok parent ∧
    place = parent ++ [listingFile script]
  leads : tree.Leads (listingPath directory script) place

namespace Placed

variable {tree after : Node} {directory : Path} {one other script : LoadedScript}
  {place elsewhere : List Text}

theorem keep {changed : List Text → Prop} (placed : Placed tree directory script place)
    (keeps : tree.Keeps changed after) : Placed after directory script place := by
  obtain ⟨⟨parent, located, split⟩, leads⟩ := placed
  exact ⟨⟨parent, keeps.locate located, split⟩, leads.keep keeps⟩

/-- Listings share a place exactly if they have one name. -/
theorem same_iff (first : Placed tree directory one place)
    (second : Placed tree directory other elsewhere) :
    place = elsewhere ↔ listingFile one = listingFile other := by
  obtain ⟨⟨parent, located, rfl⟩, _⟩ := first
  obtain ⟨⟨_, again, rfl⟩, _⟩ := second
  cases located.symm.trans again
  simp

theorem of_granted (granted : tree.placeForFile (listingPath directory script) = .ok place)
    (bytes : Bytes) : Placed (tree.writeAt place bytes) directory script place := by
  obtain ⟨keeps, leads, _⟩ := Node.writeAt_granted granted bytes
  refine ⟨?_, leads⟩
  obtain ⟨names, parent, name, _, settled, located, _, _, rfl, _⟩ :=
    Node.placeForFile_ok granted
  have spelled : names ++ [name] =
      directory.names.map Path.settleName ++ [listingFile script] := by
    rw [Path.settle_names settled, listingPath, Path.child, List.map_append]
    rfl
  obtain ⟨rfl, same⟩ := List.append_inj' spelled rfl
  cases same
  exact ⟨parent, keeps.locate located, rfl⟩

end Placed

/-- The listing of a script is at a place, unless the log is. -/
def Holds (session : Session) (table : Table) (limit : Option Int) (script : LoadedScript)
    (place : List Text) : Prop :=
  session.logPlace ≠ some place →
    ∃ bytes, listing? table limit script = some bytes ∧
      session.tree.at? place = some (.file bytes)

theorem Holds.keep {before after : Session} {table : Table} {limit : Option Int}
    {script : LoadedScript} {place : List Text} {changed : List Text → Prop}
    (holds : Holds before table limit script place) (advances : Advances changed before after)
    (unchanged : ¬ changed place) : Holds after table limit script place := by
  intro apart
  rw [advances.logPlace] at apart
  obtain ⟨bytes, listed, held⟩ := holds apart
  refine ⟨bytes, listed, advances.tree.files place bytes ?_ held⟩
  rintro (was | log)
  · exact unchanged was
  · exact apart log

/-- A limit without a value is as good as none, for a listing that does not need it. -/
theorem listingOf_ok {limit : Option (Given Int)} {graph : Graph} {text : Text}
    {before after : Session} (ran : listingOf limit graph before = .ok text after) :
    Listing.ofGraph graph (limitOf limit) = .ok text ∧ before = after := by
  unfold listingOf at ran
  split at ran
  · exact orHalt_ok ran
  · exact orHalt_ok ran
  · split at ran
    · exact orHalt_ok ran
    · cases ran

theorem writeFile_ok {target : Path} {text : Text} {before after : Session}
    (ran : writeFile target text before = .ok () after) :
    ∃ place bytes, text.toUtf8 = .ok bytes ∧ before.tree.placeForFile target = .ok place ∧
      after = { before with tree := before.tree.writeAt place bytes } := by
  obtain ⟨_, _, got, placing⟩ := Steps.bind_ok_iff.mp ran
  cases got
  obtain ⟨place, middle, placed, writing⟩ := Steps.bind_ok_iff.mp placing
  obtain ⟨granted, rfl⟩ := orHalt_ok placed
  cases encoded : text.toUtf8 with
  | error error =>
      simp only [encoded] at writing
      obtain ⟨_, _, _, thrown⟩ := Steps.bind_ok_iff.mp writing
      cases thrown
  | ok bytes =>
      simp only [encoded] at writing
      cases writing
      exact ⟨place, bytes, rfl, granted, rfl⟩

section Report

variable {options : Options} {table : Table} {directory : Path} {script : LoadedScript}
  {before after : Session}

structure Wrote (options : Options) (table : Table) (directory : Path) (script : LoadedScript)
    (place : List Text) (before after : Session) : Prop where
  placed : Placed after.tree directory script place
  advances : Advances (· = place) before after
  holds : Holds after table (limitOf options.maxInstructions) script place

theorem Wrote.prepend {middle : Session} {place : List Text}
    (wrote : Wrote options table directory script place middle after)
    (advances : Advances (fun _ => False) before middle) :
    Wrote options table directory script place before after where
  placed := wrote.placed
  advances := (advances.weaken fun _ => False.elim).trans wrote.advances
  holds := wrote.holds

theorem writeListing_ok (logging : Logging before)
    (ran : writeListing directory script
      (listingOf options.maxInstructions (explore table script.data).1) before = .ok () after) :
    ∃ place, Wrote options table directory script place before after := by
  obtain ⟨_, _, got, making⟩ := Steps.bind_ok_iff.mp ran
  cases got
  obtain ⟨tree, _, making, setting⟩ := Steps.bind_ok_iff.mp making
  obtain ⟨made, rfl⟩ := orHalt_ok making
  obtain ⟨_, grown, set, listing⟩ := Steps.bind_ok_iff.mp setting
  have ready : Advances (fun _ => False) before grown := by
    cases set
    exact ⟨rfl, (Node.makeDirectories_keeps made).weaken fun _ => False.elim⟩
  obtain ⟨text, _, listed, writing⟩ := Steps.bind_ok_iff.mp listing
  obtain ⟨rendered, rfl⟩ := listingOf_ok listed
  obtain ⟨_, written, wrote, logged⟩ := Steps.bind_ok_iff.mp writing
  obtain ⟨place, bytes, encoded, granted, rfl⟩ := writeFile_ok wrote
  obtain ⟨keeps, _, there⟩ := Node.writeAt_granted granted bytes
  have writes : Advances (· = place) grown
      { grown with tree := grown.tree.writeAt place bytes } := ⟨rfl, keeps.weaken fun _ => Or.inl⟩
  -- The log is written to last, and so can spoil the listing if it is the same file.
  have ends := Steady.log _ _ () after (writes.logging (ready.logging logging)) logged
  refine ⟨place, ⟨?_, ?_, ?_⟩⟩
  · exact (Placed.of_granted granted bytes).keep ends.tree
  · exact ((ready.weaken fun _ => False.elim).trans writes).trans (ends.weaken fun _ => False.elim)
  · refine Holds.keep (fun _ => ⟨bytes, ?_, there⟩) ends id
    simp [listing?, rendered, encoded, Except.toOption]

theorem reportListing_ok (asked : options.listingOut = some directory) (logging : Logging before)
    (ran : reportListing options table script before = .ok () after) :
    ∃ place, Wrote options table directory script place before after := by
  unfold reportListing at ran
  rw [asked] at ran
  obtain ⟨_, logged, recording, further⟩ := Steps.bind_ok_iff.mp ran
  have recorded := Steady.log _ before () logged logging recording
  by_cases shown : options.listing = true
  · simp only [shown, ↓reduceIte] at further
    obtain ⟨text, _, listed, printing⟩ := Steps.bind_ok_iff.mp further
    obtain ⟨-, rfl⟩ := listingOf_ok listed
    obtain ⟨_, shown, printing, writing⟩ := Steps.bind_ok_iff.mp printing
    have printed := recorded.trans
      (Steady.print _ logged () shown (recorded.logging logging) printing)
    obtain ⟨place, wrote⟩ := writeListing_ok (printed.logging logging) writing
    exact ⟨place, wrote.prepend printed⟩
  · simp only [shown, Bool.false_eq_true, ↓reduceIte] at further
    obtain ⟨place, wrote⟩ := writeListing_ok (recorded.logging logging) further
    exact ⟨place, wrote.prepend recorded⟩

theorem reportScript_ok (asked : options.listingOut = some directory) (logging : Logging before)
    (ran : reportScript options table script before = .ok () after) :
    ∃ place, Wrote options table directory script place before after := by
  obtain ⟨_, middle, printing, further⟩ := Steps.bind_ok_iff.mp ran
  have printed := Steady.print _ before () middle logging printing
  simp only [asked, Option.isSome_some, Bool.or_true, ↓reduceIte] at further
  obtain ⟨place, wrote⟩ := reportListing_ok asked (printed.logging logging) further
  exact ⟨place, wrote.prepend printed⟩

/-- What the reports on several scripts leave behind: each listing has its place, no other file
changed, and each place holds the listing of the last script that has it. -/
structure Reported (options : Options) (table : Table) (directory : Path)
    (scripts : List LoadedScript) (before after : Session) : Prop where
  placed : ∀ script ∈ scripts, ∃ place, Placed after.tree directory script place
  advances : Advances (fun place => ∃ script ∈ scripts, Placed after.tree directory script place)
    before after
  holds : ∀ front script rest place, scripts = front ++ script :: rest →
    (∀ later ∈ rest, listingFile later ≠ listingFile script) →
    Placed after.tree directory script place →
    Holds after table (limitOf options.maxInstructions) script place

theorem reportScripts_ok {scripts : List LoadedScript}
    (asked : options.listingOut = some directory) (logging : Logging before)
    (ran : reportScripts options table scripts before = .ok () after) :
    Reported options table directory scripts before after := by
  induction scripts generalizing before with
  | nil =>
      cases ran
      refine ⟨fun _ member => (List.not_mem_nil member).elim, Advances.refl _ _, ?_⟩
      intro front script rest place split
      cases front <;> cases split
  | cons script rest ih =>
      obtain ⟨_, middle, reporting, further⟩ := Steps.bind_ok_iff.mp ran
      obtain ⟨place, wrote⟩ := reportScript_ok asked logging reporting
      have reported := ih (wrote.advances.logging logging) further
      have still := wrote.placed.keep reported.advances.tree
      refine ⟨?_, ?_, ?_⟩
      · intro other member
        rcases List.mem_cons.mp member with rfl | later
        · exact ⟨place, still⟩
        · exact reported.placed other later
      · apply Advances.trans (wrote.advances.weaken ?_) (reported.advances.weaken ?_)
        · rintro _ rfl
          exact ⟨script, List.mem_cons_self, still⟩
        · rintro _ ⟨other, later, placed⟩
          exact ⟨other, List.mem_cons_of_mem script later, placed⟩
      · intro front last behind elsewhere split alone placed
        cases front with
        | nil =>
            -- The listing of the head stays, as none behind it has its name.
            cases split
            cases (placed.same_iff still).mpr rfl
            apply wrote.holds.keep reported.advances
            rintro ⟨other, later, shared⟩
            exact alone other later ((shared.same_iff still).mp rfl)
        | cons first front =>
            cases split
            exact reported.holds front last behind elsewhere rfl alone placed

def Listed (tree : Node) (directory : Path) (table : Table) (limit : Option Int)
    (script : LoadedScript) : Prop :=
  ∃ bytes ∈ listing? table limit script,
    tree.readFile (listingPath directory script) = .ok bytes

instance (tree : Node) (directory : Path) (table : Table) (limit : Option Int)
    (script : LoadedScript) : Decidable (Listed tree directory table limit script) :=
  decidable_of_iff (∃ bytes ∈ listing? table limit script,
      (tree.readFile (listingPath directory script)).toOption = some bytes) <| by
    unfold Listed
    cases tree.readFile (listingPath directory script) <;> simp [Except.toOption]

def Agree (table : Table) (limit : Option Int) (scripts : List LoadedScript) : Prop :=
  ∀ one ∈ scripts, ∀ other ∈ scripts, listingFile one = listingFile other →
    listing? table limit one = listing? table limit other

instance (table : Table) (limit : Option Int) (scripts : List LoadedScript) :
    Decidable (Agree table limit scripts) :=
  (inferInstance : Decidable (∀ one ∈ scripts, ∀ other ∈ scripts,
    listingFile one = listingFile other → listing? table limit one = listing? table limit other))

namespace Reported

variable {scripts : List LoadedScript}

theorem listed_last (reported : Reported options table directory scripts before after)
    (quiet : ∀ script ∈ scripts, ∀ place, after.logPlace = some place →
      ¬ after.tree.Leads (listingPath directory script) place)
    {front rest : List LoadedScript} (split : scripts = front ++ script :: rest)
    (alone : ∀ later ∈ rest, listingFile later ≠ listingFile script) :
    Listed after.tree directory table (limitOf options.maxInstructions) script := by
  have member : script ∈ scripts := by simp [split]
  obtain ⟨place, placed⟩ := reported.placed script member
  have apart : after.logPlace ≠ some place :=
    fun log => quiet script member place log placed.leads
  obtain ⟨bytes, listed, held⟩ := reported.holds front script rest place split alone placed apart
  exact ⟨bytes, listed, (placed.leads.readFile_iff bytes).mpr held⟩

theorem readFile_eq (reported : Reported options table directory scripts before after)
    {one other : LoadedScript} (first : one ∈ scripts) (second : other ∈ scripts)
    (same : listingFile one = listingFile other) {bytes : Bytes}
    (read : after.tree.readFile (listingPath directory one) = .ok bytes) :
    after.tree.readFile (listingPath directory other) = .ok bytes := by
  obtain ⟨place, here⟩ := reported.placed one first
  obtain ⟨elsewhere, there⟩ := reported.placed other second
  cases (here.same_iff there).mpr same
  exact (there.leads.readFile_iff bytes).mpr ((here.leads.readFile_iff bytes).mp read)

end Reported

end Report

/-- Among the scripts that share a file with one of them, one is the last. -/
theorem exists_last {scripts : List LoadedScript} {script : LoadedScript}
    (member : script ∈ scripts) :
    ∃ front last rest, scripts = front ++ last :: rest ∧
      listingFile last = listingFile script ∧
      ∀ later ∈ rest, listingFile later ≠ listingFile last := by
  induction scripts generalizing script with
  | nil => cases member
  | cons head tail ih =>
      by_cases again : ∃ other ∈ tail, listingFile other = listingFile script
      · obtain ⟨other, later, same⟩ := again
        obtain ⟨front, last, rest, split, named, alone⟩ := ih later
        exact ⟨head :: front, last, rest, by rw [split]; rfl, named.trans same, alone⟩
      · rcases List.mem_cons.mp member with rfl | later
        · exact ⟨[], script, tail, rfl, rfl, fun other later same => again ⟨other, later, same⟩⟩
        · exact (again ⟨script, later, rfl⟩).elim

/-- A run gathers, reports on the scripts one by one, and sums up if it is asked to. -/
theorem perform_steps {options : Options} {before after : Session} {found : Bool}
    (ran : perform options before = .ok found after) :
    ∃ collected middle reported, gather options before = .ok collected middle ∧
      reportScripts options collected.table (scriptsOf collected.resources) middle =
        .ok () reported ∧
      found = (flagged (scriptsOf collected.resources) != 0 || !collected.known) ∧
      after = { reported with
        out := reported.out ++ if options.summary then
          summary (scriptsOf collected.resources) collected.loader.store else [] } := by
  obtain ⟨collected, middle, gathered, further⟩ := Steps.bind_ok_iff.mp ran
  obtain ⟨_, reported, reporting, summing⟩ := Steps.bind_ok_iff.mp further
  refine ⟨collected, middle, reported, gathered, reporting, ?_⟩
  by_cases asked : options.summary = true
  · simp only [asked, ↓reduceIte] at summing ⊢
    obtain ⟨_, _, printed, last⟩ := Steps.bind_ok_iff.mp summing
    cases printed
    cases last
    exact ⟨rfl, rfl⟩
  · simp only [asked, Bool.false_eq_true, ↓reduceIte] at summing ⊢
    cases summing
    exact ⟨rfl, by rw [List.append_nil]⟩

theorem perform_ok {options : Options} {before after : Session} {found : Bool}
    (ran : perform options before = .ok found after) :
    ∃ collected middle reported, gather options before = .ok collected middle ∧
      reportScripts options collected.table (scriptsOf collected.resources) middle =
        .ok () reported ∧
      after.tree = reported.tree ∧ after.logPlace = reported.logPlace := by
  obtain ⟨collected, middle, reported, gathered, reporting, -, rfl⟩ := perform_steps ran
  exact ⟨collected, middle, reported, gathered, reporting, rfl, rfl⟩

theorem runCommandLine_ok_iff {base : Path} {args : List Text} {tree : Node} {options : Options}
    (parsed : Options.parse args = .ok options) (found : Bool) (final : Session) :
    runCommandLine base args tree = .ran (.ok found) final ↔
      perform options { tree, base } = .ok found final := by
  cases performed : perform options { tree, base } <;> simp [runCommandLine, parsed, performed]

/-- After a run, the file of each listing is that of the last script of its name. So all
listings are there exactly if scripts that share a file have the same listing. The log must not
be one of these files. -/
theorem listings_kept_iff (base : Path) (args : List Text) (tree : Node) (options : Options)
    (directory : Path) (found : Bool) (final : Session)
    (parsed : Options.parse args = .ok options) (asked : options.listingOut = some directory)
    (ran : runCommandLine base args tree = .ran (.ok found) final) :
    ∃ collected middle, gather options { tree, base } = .ok collected middle ∧
      ((∀ script ∈ scriptsOf collected.resources, ∀ place, final.logPlace = some place →
          ¬ final.tree.Leads (listingPath directory script) place) →
        (∀ front script rest, scriptsOf collected.resources = front ++ script :: rest →
          (∀ later ∈ rest, listingFile later ≠ listingFile script) →
          Listed final.tree directory collected.table (limitOf options.maxInstructions) script) ∧
        ((∀ script ∈ scriptsOf collected.resources, Listed final.tree directory collected.table
            (limitOf options.maxInstructions) script) ↔
          Agree collected.table (limitOf options.maxInstructions)
            (scriptsOf collected.resources))) := by
  have performed := (runCommandLine_ok_iff parsed found final).mp ran
  obtain ⟨collected, middle, reported, gathered, reporting, sameTree, sameLog⟩ :=
    perform_ok performed
  refine ⟨collected, middle, gathered, ?_⟩
  rw [sameTree, sameLog]
  intro quiet
  have report := reportScripts_ok asked (gather_logging gathered) reporting
  refine ⟨?_, ?_, ?_⟩
  · intro front script rest split alone
    exact report.listed_last quiet split alone
  · intro listed one first other second same
    obtain ⟨bytes, oneListed, oneRead⟩ := listed one first
    obtain ⟨_, otherListed, otherRead⟩ := listed other second
    cases (report.readFile_eq first second same oneRead).symm.trans otherRead
    rw [oneListed, otherListed]
  · intro alike script member
    obtain ⟨front, last, rest, split, same, alone⟩ := exists_last member
    have lastMember : last ∈ scriptsOf collected.resources := by simp [split]
    obtain ⟨bytes, listed, read⟩ := report.listed_last quiet split alone
    refine ⟨bytes, ?_, report.readFile_eq lastMember member same read⟩
    rw [← alike last lastMember script member same]
    exact listed

def drive (second : Bytes) : Node :=
  .directory [(Text.ofString "x", .directory [(Text.ofString "a.csa", .file [])]),
    (Text.ofString "y", .directory [(Text.ofString "a.csa", .file second)])]

def driveArgs : List Text := ["x/a.csa", "y/a.csa", "--listing-out", "out"]

def outPath : Path := ⟨["out"]⟩

def driveOptions : Options where
  inputs := [⟨["x", "a.csa"]⟩, ⟨["y", "a.csa"]⟩]
  listingOut := some outPath

theorem driveArgs_parsed : Options.parse driveArgs = .ok driveOptions := by rfl

def Ends {α : Type} (run : Run α) (start : Session) (expected : α → Session → Bool) : Bool :=
  match run start with
  | .ok value final => expected value final
  | .error _ _ => false

theorem Ends.exists {α : Type} {run : Run α} {start : Session} {expected : α → Session → Bool}
    (ends : Ends run start expected = true) :
    ∃ value final, run start = .ok value final ∧ expected value final = true := by
  unfold Ends at ends
  cases ran : run start with
  | ok value final =>
      rw [ran] at ends
      exact ⟨value, final, rfl, ends⟩
  | error halt final =>
      rw [ran] at ends
      cases ends

/-- Empty scripts share a file and have the same listing. -/
theorem drive_kept :
    ∃ found final collected middle,
      runCommandLine .current driveArgs (drive []) = .ran (.ok found) final ∧
      gather driveOptions { tree := drive [], base := .current } = .ok collected middle ∧
      (scriptsOf collected.resources).length = 2 ∧
      ∀ script ∈ scriptsOf collected.resources,
        Listed final.tree outPath collected.table none script := by
  have performs : Ends (perform driveOptions) { tree := drive [], base := .current }
      (fun _ final => final.logPlace.isNone) = true := by decide +kernel
  have gathers : Ends (gather driveOptions) { tree := drive [], base := .current }
      (fun collected _ => decide ((scriptsOf collected.resources).length = 2 ∧
        Agree collected.table none (scriptsOf collected.resources))) = true := by decide +kernel
  obtain ⟨found, final, performed, silent⟩ := Ends.exists performs
  have ran := (runCommandLine_ok_iff driveArgs_parsed found final).mpr performed
  obtain ⟨collected, middle, gathered, kept⟩ := listings_kept_iff .current driveArgs (drive [])
    driveOptions outPath found final driveArgs_parsed rfl ran
  obtain ⟨_, _, again, agree⟩ := Ends.exists gathers
  cases gathered.symm.trans again
  obtain ⟨two, agree⟩ := of_decide_eq_true agree
  refine ⟨found, final, collected, middle, ran, gathered, two, (kept ?_).2.mpr agree⟩
  intro script _ place log
  rw [log] at silent
  cases silent

/-- A script of one byte takes the file of the empty one, whose listing is lost. -/
theorem drive_lost :
    ∃ found final collected middle,
      runCommandLine .current driveArgs (drive [0x00]) = .ran (.ok found) final ∧
      gather driveOptions { tree := drive [0x00], base := .current } = .ok collected middle ∧
      final.logPlace = none ∧
      ∃ script ∈ scriptsOf collected.resources,
        ¬ Listed final.tree outPath collected.table none script := by
  have gathers : Ends (gather driveOptions) { tree := drive [0x00], base := .current }
      (fun collected _ =>
        Ends (perform driveOptions) { tree := drive [0x00], base := .current } fun _ final =>
          decide (final.logPlace = none ∧ ∃ script ∈ scriptsOf collected.resources,
            ¬ Listed final.tree outPath collected.table none script)) = true := by
    decide +kernel
  obtain ⟨collected, middle, gathered, performs⟩ := Ends.exists gathers
  obtain ⟨found, final, performed, lost⟩ := Ends.exists performs
  have ran := (runCommandLine_ok_iff driveArgs_parsed found final).mpr performed
  obtain ⟨silent, lost⟩ := of_decide_eq_true lost
  exact ⟨found, final, collected, middle, ran, gathered, silent, lost⟩

end ScriptAudit.Session
