import KeyedLog.Proofs.Files.Twins

/-!
Paths in two trees that look the same to somebody. A path of his leads to the same place in both, or it ends in the second
tree at a directory that is missing there, behind which it does not turn back.
-/

namespace KeyedLog

open FileTree

namespace Scope

def Passes (scope : Scope) : Location → List String → Prop
  | _, [] => True
  | location, name :: rest =>
    scope.Sees (descend location name) ∧
      (".." ∈ rest → scope.own (descend location name) ∨ scope.turns (descend location name)) ∧
      scope.Passes (descend location name) rest

/-- What is not his on the way is a directory. -/
def Paves (scope : Scope) (tree : FileTree) : Location → List String → Prop
  | _, [] => True
  | location, name :: rest =>
    (scope.own (descend location name) ∨ tree.node? (descend location name) = some .directory) ∧
      scope.Paves tree (descend location name) rest

variable {scope mine theirs : Scope} {tree twin after : FileTree} {start place : Location} {names upper lower : List String}

theorem Passes.front (passes : scope.Passes start (upper ++ lower)) : scope.Passes start upper := by
  induction upper generalizing start with
  | nil => trivial
  | cons name rest ih =>
      obtain ⟨sees, turned, further⟩ := passes
      exact ⟨sees, fun up => turned (List.mem_append_left _ up), ih further⟩

theorem Passes.back (passes : scope.Passes start (upper ++ lower)) :
    scope.Passes (upper.foldl descend start) lower := by
  induction upper generalizing start with
  | nil => exact passes
  | cons name rest ih => exact ih passes.2.2

theorem Paves.front (paves : scope.Paves tree start (upper ++ lower)) : scope.Paves tree start upper := by
  induction upper generalizing start with
  | nil => trivial
  | cons name rest ih => exact ⟨paves.1, ih paves.2⟩

theorem Paves.append (first : scope.Paves tree start upper) (second : scope.Paves tree (upper.foldl descend start) lower) :
    scope.Paves tree start (upper ++ lower) := by
  induction upper generalizing start with
  | nil => exact second
  | cons name rest ih => exact ⟨first.1, ih first.2 second⟩

theorem paves_dots (own : scope.own start) (count : Nat) : scope.Paves tree start (List.replicate count ".") := by
  induction count with
  | zero => trivial
  | succ count ih => exact ⟨.inl own, ih⟩

theorem Paves.confined (paves : scope.Paves tree start names) (confined : Confined scope tree after) :
    scope.Paves after start names := by
  induction names generalizing start with
  | nil => trivial
  | cons name rest ih =>
      refine ⟨?_, ih paves.2⟩
      by_cases own : scope.own (descend start name)
      · exact .inl own
      · have stands := paves.1.resolve_left own
        rcases confined.outside _ own with same | ⟨-, free, -⟩
        · exact .inr (same.trans stands)
        · rw [free] at stands
          simp at stands

theorem paves_of_follow (way : tree.follow start names = .ok place) : scope.Paves tree start names := by
  induction names generalizing start with
  | nil => trivial
  | cons name rest ih =>
      obtain ⟨next, step, stands, further⟩ := follow_cons_ok.mp way
      obtain rfl := step_descend step
      exact ⟨.inr stands, ih further⟩

end Scope

namespace FileTree

variable {scope : Scope} {tree twin : FileTree} {start place : Location} {names upper lower : List String} {path : String}

theorem follow_error {fault : IoFault} (failed : tree.follow start upper = .error fault) (lower : List String) :
    tree.follow start (upper ++ lower) = .error fault := by
  rw [follow_append, failed]
  rfl

theorem descend_below (names : List String) (place : Location) (onward : ".." ∉ names) :
    ∃ rest, names.foldl descend place = place ++ rest := by
  induction names generalizing place with
  | nil => exact ⟨[], (List.append_nil place).symm⟩
  | cons name rest ih =>
      rw [List.mem_cons, not_or] at onward
      obtain ⟨deeper, shape⟩ := ih (descend place name) onward.2
      rw [List.foldl_cons, shape, descend, if_neg (Ne.symm onward.1)]
      split
      · exact ⟨deeper, rfl⟩
      · exact ⟨name :: deeper, by rw [List.append_assoc, List.singleton_append]⟩

theorem descend_dots (place : Location) (count : Nat) : (List.replicate count ".").foldl descend place = place := by
  induction count with
  | zero => rfl
  | succ count ih => exact ih

structure Misses (tree twin : FileTree) (start : Location) (upper lower : List String) : Prop where
  onward : ".." ∉ lower
  reached : tree.follow start upper = .ok (upper.foldl descend start)
  failed : twin.follow start upper = .error .notFound
  there : tree.node? (upper.foldl descend start) = some .directory
  free : twin.node? (upper.foldl descend start) = none

theorem Twins.follow (twins : Twins scope tree twin) (passes : scope.Passes start names) :
    twin.follow start names = tree.follow start names ∨
      ∃ upper lower, names = upper ++ lower ∧ Misses tree twin start upper lower := by
  induction names generalizing start with
  | nil => exact .inl rfl
  | cons name rest ih =>
      obtain ⟨sees, turned, further⟩ := passes
      cases next : step start name with
      | error fault =>
          left
          simp only [FileTree.follow, next, bind, Except.bind]
      | ok place =>
          obtain rfl := step_descend next
          have alike : twin.sight? (descend start name) = tree.sight? (descend start name) →
              twin.follow start (name :: rest) = tree.follow start (name :: rest) ∨
                ∃ upper lower, name :: rest = upper ++ lower ∧ Misses tree twin start upper lower := by
            intro same
            rcases node?_of_sight? same with ⟨free, freeTwin⟩ | ⟨there, thereTwin⟩ | ⟨one, two, content, here, hereTwin⟩
            · left
              simp only [FileTree.follow, next, bind, Except.bind, free, freeTwin]
            · rcases ih further with equal | ⟨upper, lower, shape, onward, reached, failed, stands, free⟩
              · left
                simp only [FileTree.follow, next, bind, Except.bind, there, thereTwin, equal]
              · refine .inr ⟨name :: upper, lower, by rw [shape]; rfl, onward, ?_, ?_, stands, free⟩
                · exact follow_cons_ok.mpr ⟨_, next, there, reached⟩
                · simp only [FileTree.follow, next, bind, Except.bind, thereTwin, failed]
            · left
              simp only [FileTree.follow, next, bind, Except.bind, here, hereTwin]
          -- A directory that only the first tree has bars a way that turns back later on. Such places look the same.
          by_cases up : ".." ∈ rest
          · rcases turned up with own | turn
            · exact alike (twins.own _ own)
            · exact alike (twins.turns _ turn)
          · rcases twins.sees sees with same | ⟨there, free⟩
            · exact alike same
            · refine .inr ⟨[name], rest, rfl, up, ?_, ?_, there, free⟩
              · exact follow_cons_ok.mpr ⟨_, next, there, rfl⟩
              · simp only [FileTree.follow, next, bind, Except.bind, free]

theorem Twins.follow_of_ok (twins : Twins scope tree twin) (passes : scope.Passes start names)
    (way : twin.follow start names = .ok place) : tree.follow start names = .ok place := by
  rcases twins.follow passes with same | ⟨upper, lower, rfl, misses⟩
  · exact same ▸ way
  · rw [follow_error misses.failed] at way
    simp at way

theorem Twins.follow_paved (twins : Twins scope tree twin) (passes : scope.Passes start names)
    (paves : scope.Paves twin start names) : twin.follow start names = tree.follow start names := by
  rcases twins.follow passes with same | ⟨upper, lower, rfl, misses⟩
  · exact same
  · -- The missing directory would be his, and so be missing in both.
    exfalso
    have own : ∀ (start : Location) (upper : List String), scope.Paves twin start upper → upper ≠ [] →
        twin.node? (upper.foldl descend start) = none → scope.own (upper.foldl descend start) := by
      intro start upper paves nonempty free
      induction upper generalizing start with
      | nil => exact absurd rfl nonempty
      | cons name rest ih =>
          by_cases last : rest = []
          · subst last
            refine paves.1.resolve_right ?_
            rw [show twin.node? (descend start name) = none from free]
            simp
          · exact ih (descend start name) paves.2 last free
    have nonempty : upper ≠ [] := by
      rintro rfl
      have failed := misses.failed
      simp [FileTree.follow] at failed
    have same := twins.own _ (own start upper paves.front nonempty misses.free)
    rw [sight?_none.mpr misses.free] at same
    have there := misses.there
    rw [sight?_none.mp same.symm] at there
    simp at there

namespace Misses

variable (misses : Misses tree twin start upper lower) (sound : twin.IsSound)

include misses

theorem failedAll : twin.follow start (upper ++ lower) = .error .notFound :=
  follow_error misses.failed lower

include sound

theorem free_below (rest : List String) : twin.node? (upper.foldl descend start ++ rest) = none := by
  by_cases direct : rest = []
  · rw [direct, List.append_nil]
    exact misses.free
  · exact sound.none_below (by simp [misses.free]) direct

theorem free_end : twin.node? ((upper ++ lower).foldl descend start) = none := by
  obtain ⟨rest, below⟩ := descend_below lower (upper.foldl descend start) misses.onward
  rw [List.foldl_append, below]
  exact misses.free_below sound rest

theorem follow_ne (twins : Twins scope tree twin) (passes : scope.Passes start (upper ++ lower)) :
    tree.follow start (upper ++ lower) ≠ .error .notDirectory := by
  have onward := misses.onward
  have free := misses.free_below sound
  replace passes := passes.back
  rw [follow_append, misses.reached]
  show tree.follow (upper.foldl descend start) lower ≠ _
  generalize upper.foldl descend start = place at free passes
  clear misses
  -- Behind the missing directory the first tree has only directories on his way, as he has no files there.
  induction lower generalizing place with
  | nil => simp [FileTree.follow]
  | cons name rest ih =>
      rw [List.mem_cons, not_or] at onward
      cases next : step place name with
      | error fault =>
          simp only [FileTree.follow, next, bind, Except.bind, ne_eq, Except.error.injEq]
          rintro rfl
          simp only [step, if_neg (Ne.symm onward.1)] at next
          split at next
          · simp at next
          · split at next <;> simp at next
      | ok deeper =>
          obtain rfl := step_descend next
          obtain ⟨more, below⟩ := descend_below [name] place (by simpa using onward.1)
          have below : descend place name = place ++ more := below
          have missing : twin.node? (descend place name) = none := by rw [below]; exact free more
          have stands : tree.node? (descend place name) = none ∨ tree.node? (descend place name) = some .directory := by
            rcases twins.sees passes.1 with same | ⟨there, -⟩
            · exact .inl (sight?_none.mp (same.symm.trans (sight?_none.mpr missing)))
            · exact .inr there
          rcases stands with nothing | there
          · simp [FileTree.follow, next, bind, Except.bind, nothing]
          · simp only [FileTree.follow, next, bind, Except.bind, there]
            refine ih onward.2 (descend place name) ?_ passes.2.2
            intro rest
            rw [below, List.append_assoc]
            exact free (more ++ rest)

end Misses

def pathNames (path : String) : List String :=
  (Path.steps path.toList).map String.ofList

theorem place_eq (tree : FileTree) (path : String) :
    tree.place path = (pathNames path).foldl descend (tree.origin path.toList) := rfl

end FileTree

end KeyedLog
