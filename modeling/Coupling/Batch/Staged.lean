import Coupling.Activity
import Coupling.Survey.Walk

/-!
# Work in phases

Work that may end in a fault, done by someone whose activity can be seen meanwhile. What is done
during a phase leaves the activity as it was, whether it ends well or not.
-/

namespace Coupling

def Staged (α : Type) : Type := Activity → Except Fault α × Activity

namespace Staged

variable {α β : Type}

def done (x : α) : Staged α := fun a => (.ok x, a)

def ofExcept (r : Except Fault α) : Staged α := fun a => (r, a)

/-- Goes on with a result, unless the work ended in a fault. -/
def andThen (t : Staged α) (next : α → Staged β) : Staged β := fun a =>
  match t a with
  | (.ok x, a) => next x a
  | (.error fault, a) => (.error fault, a)

def during (phase : Phase) (t : Staged α) : Staged α := fun a =>
  let (inside, guard) := a.setPhase phase
  ((t inside).1, guard.release)

@[simp] theorem during_apply (phase : Phase) (t : Staged α) (a : Activity) :
    during phase t a = ((t { a with phase := some phase }).1, a) := rfl

end Staged

open Syntax

/-- The analysis of a document in its phases. -/
def Syntax.Document.staged (l : Limits) (path : String) (doc : Document) : Staged (List Finding) :=
  (Staged.during .parsing (.done (Source.ofDocument path doc))).andThen fun
    | .error finding => .done [finding]
    | .ok source =>
      let walked := Walk.start.traverse l source (.root source.root)
      (Staged.during .detection (.ofExcept walked)).andThen fun w =>
        Staged.during .resolution (.done (distinct (w.finish l source.path)))

/-- The phases have no influence on the findings. -/
theorem Syntax.Document.staged_apply (l : Limits) (path : String) (doc : Document) (a : Activity) :
    doc.staged l path a = (doc.analyze l path, a) := by
  unfold Document.staged Document.analyze
  simp only [Staged.andThen, Staged.during_apply, Staged.done]
  cases Source.ofDocument path doc with
  | error finding => rfl
  | ok source =>
    simp only [Source.analyze, Source.emitted]
    cases Walk.start.traverse l source (.root source.root) <;> rfl

end Coupling
