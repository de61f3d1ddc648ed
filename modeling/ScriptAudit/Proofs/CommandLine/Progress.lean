import ScriptAudit.CommandLine.Session
import ScriptAudit.Proofs.Files.Writing

/-!
What the steps of a run do to the tree of files. A step appends to the log and writes its own
files, and all else stays: no path leads elsewhere, and no other file changes.
-/
namespace ScriptAudit.Session

def Logging (session : Session) : Prop :=
  ∀ place, session.logPlace = some place → session.tree.HasFile place

/-- The log is where it was, and only it and the files at some places have changed. -/
structure Advances (changed : List Text → Prop) (before after : Session) : Prop where
  logPlace : after.logPlace = before.logPlace
  tree : before.tree.Keeps (fun place => changed place ∨ before.logPlace = some place) after.tree

namespace Advances

variable {changed : List Text → Prop} {before middle after : Session}

theorem refl (changed : List Text → Prop) (session : Session) : Advances changed session session :=
  ⟨rfl, Node.Keeps.refl _ _⟩

theorem trans (first : Advances changed before middle) (second : Advances changed middle after) :
    Advances changed before after where
  logPlace := second.logPlace.trans first.logPlace
  tree := by
    have later := second.tree
    rw [first.logPlace] at later
    exact first.tree.trans later

theorem weaken {more : List Text → Prop} (advances : Advances changed before after)
    (wider : ∀ place, changed place → more place) : Advances more before after where
  logPlace := advances.logPlace
  tree := advances.tree.weaken fun place => Or.imp_left (wider place)

theorem logging (advances : Advances changed before after) (logging : Logging before) :
    Logging after := by
  intro place held
  rw [advances.logPlace] at held
  exact (logging place held).keep advances.tree

end Advances

theorem record_advances {session : Session} (logging : Logging session) (events : List Event) :
    Advances (fun _ => False) session (session.record events) := by
  unfold record
  cases held : session.logPlace with
  | none => exact ⟨held.symm, Node.Keeps.refl _ _⟩
  | some place =>
      refine ⟨held.symm, ((logging place held).free.writeAt_keeps _).weaken ?_⟩
      rintro _ rfl
      exact Or.inr held

def Steady {α : Type} (run : Run α) : Prop :=
  ∀ before value after, Logging before → run before = .ok value after →
    Advances (fun _ => False) before after

namespace Steady

theorem print (text : Text) : Steady (Session.print text) := by
  intro before value after _ ran
  cases ran
  exact ⟨rfl, Node.Keeps.refl _ _⟩

theorem log (events : List Event) : Steady (Session.log events) := by
  intro before value after logging ran
  cases ran
  exact record_advances logging events

end Steady

theorem orHalt_ok {ε α : Type} {halt : ε → Halt} {result : Except ε α} {value : α}
    {before after : Session} (ran : orHalt halt result before = .ok value after) :
    result = .ok value ∧ before = after := by
  cases result with
  | ok value =>
      cases ran
      exact ⟨rfl, rfl⟩
  | error error => cases ran

theorem openLog_logging {file : Option Path} {before after : Session}
    (silent : before.logPlace = none) (opened : openLog file before = .ok () after) :
    Logging after := by
  cases file with
  | none =>
      cases opened
      intro place held
      cases silent.symm.trans held
  | some path =>
      obtain ⟨_, _, got, asked⟩ := Steps.bind_ok_iff.mp opened
      cases got
      obtain ⟨_, settled, ran, further⟩ := Steps.bind_ok_iff.mp asked
      obtain ⟨-, rfl⟩ := orHalt_ok ran
      obtain ⟨_, _, got, placing⟩ := Steps.bind_ok_iff.mp further
      cases got
      obtain ⟨place, placed, ran, last⟩ := Steps.bind_ok_iff.mp placing
      obtain ⟨granted, rfl⟩ := orHalt_ok ran
      cases last
      rintro _ ⟨⟩
      exact Node.hasFile_writeAt granted _

end ScriptAudit.Session
