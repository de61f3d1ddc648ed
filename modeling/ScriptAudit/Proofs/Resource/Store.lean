import ScriptAudit.Proofs.Resource.Directory

/-!
The store of a loader over many loads. Entries go into the store while files are met deep in a
walk, and resources come back as the answers to the requests. Both are the same: the store is
always what the answers so far make of the first one. So a request that fails and a file that
is skipped leave no trace in it.
-/
namespace ScriptAudit

def Resource.language? : Resource → Option Language.Entries
  | script _ => none
  | language _ entries => some entries

namespace Loader

inductive Request where
  | directory (root : Node) (path : Path)
  | file (root : Node) (path : Path)

def answer (loader : Loader) : Request → Except LoadFailure (List Resource) × Loader
  | .directory root path =>
    let (result, after, _) := loader.loadAll root path
    (result, after)
  | .file root path =>
    let (result, after, _) := loader.loadPath root path
    (result, after)

/-- Requests one after the other, also behind one that fails. -/
def answers (loader : Loader) :
    List Request → List (Except LoadFailure (List Resource)) × Loader
  | [] => ([], loader)
  | request :: rest =>
    let (result, middle) := loader.answer request
    let (results, after) := middle.answers rest
    (result :: results, after)

def languages (results : List (Except LoadFailure (List Resource))) : List Language.Entries :=
  (results.flatMap kept).filterMap Resource.language?

theorem visit_keeps (loader : Loader) (visit : Visit) :
    (loader.visit visit).1 = (loader.visit visit).2.1.foldl keep loader := by
  cases visit with
  | file path bytes =>
      simp only [Loader.visit]
      cases Resource.ofFile loader.table path bytes <;> rfl
  | _ => rfl

/-- A walk keeps the resources that it gives, and nothing else. -/
theorem visitAll_keeps (loader : Loader) (visits : List Visit) :
    (loader.visitAll visits).1 =
      (visits.flatMap fun visit => (loader.visit visit).2.1).foldl keep loader := by
  induction visits generalizing loader with
  | nil => rfl
  | cons visit rest ih =>
      have same := visit_of_table (visit_table loader visit)
      simp only [visitAll, ih, same, List.flatMap_cons, List.foldl_append]
      rw [visit_keeps]

theorem answer_keeps (loader : Loader) (request : Request) :
    (loader.answer request).2 = (kept (loader.answer request).1).foldl keep loader := by
  cases request with
  | directory root path =>
      simp only [answer, loadAll]
      cases root.readDirectory path with
      | error error => rfl
      | ok entries =>
          simp only [kept, visitAll_keeps, visitAll_eq]
  | file root path =>
      simp only [answer, loadPath]
      cases loader.openFile root path <;> rfl

theorem answers_keep (loader : Loader) (requests : List Request) :
    (loader.answers requests).2 =
      ((loader.answers requests).1.flatMap kept).foldl keep loader := by
  induction requests generalizing loader with
  | nil => rfl
  | cons request rest ih =>
      simp only [answers, List.flatMap_cons, List.foldl_append, ih]
      rw [answer_keeps]

/-- Only the language files among the resources matter to the store. -/
theorem store_of_kept (loader : Loader) (resources : List Resource) :
    (resources.foldl keep loader).store =
      (resources.filterMap Resource.language?).foldl Association.update loader.store := by
  induction resources generalizing loader with
  | nil => rfl
  | cons resource rest ih =>
      rw [List.foldl_cons, ih]
      cases resource <;> rfl

theorem foldl_update (lists : List Language.Entries) (entries : Language.Entries) :
    lists.foldl Association.update entries = Association.update entries lists.flatten := by
  induction lists generalizing entries with
  | nil => rfl
  | cons first rest ih =>
      rw [List.foldl_cons, ih, List.flatten_cons, Association.update_append]

theorem visitAll_skip (loader : Loader) {visit : Visit} (front back : List Visit)
    (nothing : (loader.visit visit).2.1 = []) :
    (loader.visitAll (front ++ visit :: back)).1 = (loader.visitAll (front ++ back)).1 := by
  simp only [visitAll_keeps, List.flatMap_append, List.flatMap_cons, nothing, List.nil_append]

/-- After any requests the store is the first one, updated in order with the language files
among the answers: its keys stay in their places, new ones follow as they first occur, and the
last value for a key counts. A request that fails changes nothing, and what is skipped in a
directory might as well not be there. -/
theorem store_follows_answers (loader : Loader) (requests : List Request) :
    (loader.answers requests).2.store =
        (languages (loader.answers requests).1).foldl Association.update loader.store ∧
      (loader.answers requests).2.store.map Prod.fst = loader.store.map Prod.fst ++
        Association.newKeys loader.store (languages (loader.answers requests).1).flatten ∧
      (∀ key, Association.get? key (loader.answers requests).2.store =
        (Association.get? key (languages (loader.answers requests).1).flatten.reverse).or
          (Association.get? key loader.store)) ∧
      (∀ request failure, (loader.answer request).1 = .error failure →
        (loader.answer request).2 = loader) ∧
      ∀ root path entries front visit back, root.readDirectory path = .ok entries →
        Visit.walk path entries = front ++ visit :: back → (loader.visit visit).2.1 = [] →
        (loader.visitAll (front ++ [visit])).1 = (loader.visitAll front).1 ∧
        (loader.answer (.directory root path)).2 = (loader.visitAll (front ++ back)).1 := by
  have updated : (loader.answers requests).2.store =
      (languages (loader.answers requests).1).foldl Association.update loader.store := by
    rw [answers_keep, store_of_kept]
    rfl
  refine ⟨updated, ?_, ?_, ?_, ?_⟩
  · rw [updated, foldl_update, Association.keys_update]
  · intro key
    rw [updated, foldl_update, Association.get?_update]
  · intro request failure failed
    rw [answer_keeps, failed]
    rfl
  · intro root path entries front visit back listed walked nothing
    constructor
    · rw [loader.visitAll_skip front [] nothing, List.append_nil]
    · simp only [answer, loadAll, listed, walked]
      exact loader.visitAll_skip front back nothing

end Loader

end ScriptAudit
