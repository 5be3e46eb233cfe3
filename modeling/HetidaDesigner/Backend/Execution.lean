import HetidaDesigner.Library.EdgeList
import HetidaDesigner.Runtime.Nodes
import HetidaDesigner.Store.Containment

/-!
# From stored workflows to nodes

The functions of `backend/execution.py` which collect the nodes of a workflow from the revisions
nested in it. The recursion follows operators to the revisions they refer to; it is bounded here
by a number of levels, and running out of them is told apart from the errors of the source.
-/

namespace HetidaDesigner

open Checks Database LastEntry

variable {V D : Type}

/-- The outcome of a recursion: nothing if the levels did not suffice. -/
abbrev Recursion (α : Type) := ExceptT ExecutionError Option α

/-- `get_all_nested_transformation_revisions`: the revisions which the nestings of a workflow
refer to. Each of them is loaded. -/
def getAllNestedTransformationRevisions [UnicodeData] [DecidableEq V] (uuid4 : UUID → ℕ → UUID)
    (db : Database V D) (workflowId : UUID) : Except StoreError (List (Revision V D)) :=
  (db.findAllNestedTransformationRevisions workflowId).mapM fun descendant =>
    db.selectTrById (uuid4 descendant.nestedTransformationId) descendant.nestedTransformationId

/-- A dictionary of revisions by their ids. -/
def trafoById (trafos : List (Revision V D)) (id : UUID) : Option (Revision V D) :=
  lastEntry (fun revision => revision.id) trafos id

/-- `get_direct_child_trafos_by_operator_id` for the content of a workflow: the revisions under
the ids of the operators which refer to them. -/
def getDirectChildTrafosByOperatorId (allNestedTr : UUID → Option (Revision V D))
    (workflow : WorkflowContent V) : Except ExecutionError (List (UUID × Revision V D)) :=
  workflow.operators.mapM fun operator =>
    match allNestedTr operator.transformationId with
    | some revision => .ok (operator.id, revision)
    | none => .error .integrity

/-- The workflow content of a revision. -/
def requireWorkflow (revision : Revision V D) : Except ExecutionError (WorkflowContent V) :=
  match revision.type, revision.content with
  | .component, _ => .error .wrongType
  | .workflow, .code _ => .error .assertion
  | .workflow, .workflow content => .ok content

/-- An entry of a dictionary. -/
def requireKey {α : Type} : Option α → Except ExecutionError α
  | some a => .ok a
  | none => .error .keyError

/-- `collect_child_nodes` -/
def collectChildNodes (text : TextTools V) (allNestedTr : UUID → Option (Revision V D)) :
    ℕ → WorkflowContent V → List (UUID × Revision V D) → Recursion (List (SubNode V))
  | 0, _, _ => ExceptT.mk none
  | levels + 1, workflow, directChildTrafosByOperatorId =>
    workflow.operators.mapM fun operator => do
      let child ← liftM (requireKey
        ((lastEntry Prod.fst directChildTrafosByOperatorId operator.id).map Prod.snd))
      match operator.type with
      | .component => liftM (child.toComponentNode text operator.id operator.name)
      | .workflow => do
        let content ← liftM (requireWorkflow child)
        let children ← liftM (getDirectChildTrafosByOperatorId allNestedTr content)
        let nested ← liftM (requireKey (allNestedTr operator.transformationId))
        let subNodes ← collectChildNodes text allNestedTr levels content children
        liftM (content.toWorkflowNode text nested.id nested.name nested.versionTag
          (text.uuidStr operator.id) (some operator.name) subNodes)

/-- `nested_nodes` -/
def nestedNodes (text : TextTools V) (allNestedTr : UUID → Option (Revision V D)) (levels : ℕ)
    (trWorkflow : Revision V D) : Recursion (List (SubNode V)) := do
  let content ← liftM (requireWorkflow trWorkflow)
  let children ← liftM (getDirectChildTrafosByOperatorId allNestedTr content)
  collectChildNodes text allNestedTr levels content children

/-! ## The recursion ends -/

/-- A recursion ends with a result or an error of the source. -/
def Ends {α : Type} (x : Recursion α) : Prop := x.run ≠ none

section Ends

variable {α β : Type}

/-- Steps of the source end. -/
theorem ends_liftM (x : Except ExecutionError α) : Ends (liftM x : Recursion α) := by
  cases x <;> exact Option.some_ne_none _

/-- Steps of the source have the results they have in the source. -/
theorem eq_ok_of_run_liftM {x : Except ExecutionError α} {a : α}
    (h : (liftM x : Recursion α).run = some (.ok a)) : x = .ok a :=
  Option.some.inj h

/-- A sequence ends if both parts do. -/
theorem ends_bind {x : Recursion α} {f : α → Recursion β} (hx : Ends x)
    (hf : ∀ a, x.run = some (.ok a) → Ends (f a)) : Ends (x >>= f) := by
  unfold Ends at *
  rw [ExceptT.run_bind]
  cases hrun : x.run with
  | none => exact absurd hrun hx
  | some result =>
    cases result with
    | error error => exact Option.some_ne_none _
    | ok a => exact hf a hrun

/-- A loop ends if each step does. -/
theorem ends_mapM {f : α → Recursion β} {xs : List α} (h : ∀ x ∈ xs, Ends (f x)) :
    Ends (xs.mapM f) := by
  induction xs with
  | nil =>
    rw [List.mapM_nil]
    exact Option.some_ne_none _
  | cons x rest ih =>
    rw [List.forall_mem_cons] at h
    rw [List.mapM_cons]
    refine ends_bind h.1 fun _ _ => ends_bind (ih h.2) fun _ _ => Option.some_ne_none _

end Ends

end HetidaDesigner
