import HetidaDesigner.Validation.Saturation

/-!
# Contents which validation leaves as they are

On a settled content every test of the validators has the outcome that changes nothing: names
carry their numbers and marks, all links and ios are kept, and the links at named ios are where
those are.
-/

namespace HetidaDesigner

open Checks LastEntry

variable {V : Type}

/-- The input takes over the start connector of the link. -/
def touchesStart (wfInput : WorkflowContentDynamicInput V) (link : Link) : Prop :=
  link.start.key = (none, wfInput.id) ∧ wfInput.matchesIo link.start.connector.toIo = true

/-- The output takes over the end connector of the link. -/
def touchesFinish (wfOutput : WorkflowContentOutput) (link : Link) : Prop :=
  link.finish.key = (none, wfOutput.id) ∧ wfOutput.matchesIo link.finish.connector.toIo = true

/-- All tests of the validators come out such that nothing is changed. -/
structure WorkflowContent.Settled [UnicodeData] (content : WorkflowContent V) : Prop where
  strings : content.operators.all Operator.stringsValid = true
  names : NamesSettled content.operators
  covered : content.Covered
  linksMatch : ∀ link ∈ content.links, linkMatchesOperators content.operators link = true
  inputsKept : ∀ wfInput ∈ content.inputs,
    wfInputKept content.operators content.links wfInput = true
  outputsKept : ∀ wfOutput ∈ content.outputs,
    wfOutputKept content.operators content.links wfOutput = true
  startsAligned : ∀ wfInput ∈ content.inputs, wfInput.named = true → ∀ link ∈ content.links,
    touchesStart wfInput link → link.start.connector.position = wfInput.position
  endsAligned : ∀ wfOutput ∈ content.outputs, wfOutput.named = true → ∀ link,
    linkByEnd content.links (none, wfOutput.id) = some link → touchesFinish wfOutput link →
      link.finish.connector.position = wfOutput.position

/-! ## Aligned links -/

/-- Aligned start connectors stay where they are. -/
theorem alignStartPosition_of_aligned {wfInput : WorkflowContentDynamicInput V}
    {links : List Link} (h : ∀ link ∈ links, touchesStart wfInput link →
      link.start.connector.position = wfInput.position) :
    alignStartPosition wfInput links = links := by
  refine (List.map_congr_left fun link hlink => ?_).trans (List.map_id links)
  simp only [id_eq]
  split
  · rename_i htouches
    rw [← h link hlink htouches]
    exact link.setStartPosition_self
  · rfl

/-- A change which keeps the last fitting link keeps all links. -/
theorem modifyLast_of_fixed {p : Link → Bool} {f : Link → Link} {links : List Link}
    (h : ∀ link, (links.filter p).getLast? = some link → f link = link) :
    modifyLast p f links = links := by
  induction links with
  | nil => rfl
  | cons link rest ih =>
    unfold modifyLast
    split
    · rename_i hlast
      have hrest : rest.filter p = [] := by
        rw [List.filter_eq_nil_iff]
        simpa using hlast.2
      rw [h link (by rw [List.filter_cons_of_pos hlast.1, hrest]; rfl)]
    · rename_i hlast
      rw [ih fun last hfind => h last ?_]
      rw [List.filter_cons]
      split
      · rw [List.getLast?_cons, hfind]
        rfl
      · exact hfind

/-- Aligned end connectors stay where they are. -/
theorem alignEndPosition_of_aligned {wfOutput : WorkflowContentOutput} {links : List Link}
    (h : ∀ link, linkByEnd links (none, wfOutput.id) = some link → touchesFinish wfOutput link →
      link.finish.connector.position = wfOutput.position) :
    alignEndPosition wfOutput links = links := by
  refine modifyLast_of_fixed fun link hlast => ?_
  split
  · rename_i hmatches
    have hlast' : linkByEnd links (none, wfOutput.id) = some link := hlast
    rw [← h link hlast' ⟨(mem_of_lastEntry hlast').2, hmatches⟩]
    exact link.setFinishPosition_self
  · rfl

/-! ## The clean-up on settled data -/

/-- The tests behind keeping a dynamic input. -/
theorem wfInputKept_iff (operators : List (Operator V)) (links : List Link)
    (wfInput : WorkflowContentDynamicInput V) :
    wfInputKept operators links wfInput = true ↔
      wfInputUnnecessary operators links wfInput = false ∧
        (wfInput.named = true → namedWfInputUnnecessary links wfInput = .ok false) := by
  unfold wfInputKept
  cases wfInputUnnecessary operators links wfInput <;> cases wfInput.named <;>
    cases namedWfInputUnnecessary links wfInput <;> simp

/-- The tests behind keeping an output. -/
theorem wfOutputKept_iff (operators : List (Operator V)) (links : List Link)
    (wfOutput : WorkflowContentOutput) :
    wfOutputKept operators links wfOutput = true ↔
      wfOutputUnnecessary operators links wfOutput = false ∧
        (wfOutput.named = true → namedWfOutputUnnecessary links wfOutput = false) := by
  unfold wfOutputKept
  cases wfOutputUnnecessary operators links wfOutput <;> cases wfOutput.named <;>
    cases namedWfOutputUnnecessary links wfOutput <;> simp

/-- Inputs which are all kept and aligned pass the clean-up unchanged. -/
theorem cleanUpWorkflowContentInputs_of_kept {operators : List (Operator V)} {links : List Link}
    {inputs : List (WorkflowContentDynamicInput V)}
    (hkept : ∀ wfInput ∈ inputs, wfInputKept operators links wfInput = true)
    (haligned : ∀ wfInput ∈ inputs, wfInput.named = true → ∀ link ∈ links,
      touchesStart wfInput link → link.start.connector.position = wfInput.position) :
    cleanUpWorkflowContentInputs operators links inputs = .ok (inputs, links) := by
  induction inputs with
  | nil => rfl
  | cons wfInput rest ih =>
    have hrest := ih (fun w hw => hkept w (List.mem_cons_of_mem _ hw))
      (fun w hw => haligned w (List.mem_cons_of_mem _ hw))
    obtain ⟨hnecessary, hnamed⟩ := (wfInputKept_iff _ _ _).mp (hkept wfInput (List.mem_cons_self ..))
    unfold cleanUpWorkflowContentInputs
    rw [if_neg (by simp [hnecessary])]
    split
    · rename_i hname
      rw [hnamed hname,
        alignStartPosition_of_aligned (haligned wfInput (List.mem_cons_self ..) hname), hrest]
      rfl
    · rw [hrest]
      rfl

/-- Outputs which are all kept and aligned pass the clean-up unchanged. -/
theorem cleanUpWorkflowContentOutputs_of_kept {operators : List (Operator V)} {links : List Link}
    {outputs : List WorkflowContentOutput}
    (hkept : ∀ wfOutput ∈ outputs, wfOutputKept operators links wfOutput = true)
    (haligned : ∀ wfOutput ∈ outputs, wfOutput.named = true → ∀ link,
      linkByEnd links (none, wfOutput.id) = some link → touchesFinish wfOutput link →
        link.finish.connector.position = wfOutput.position) :
    cleanUpWorkflowContentOutputs operators links outputs = (outputs, links) := by
  induction outputs with
  | nil => rfl
  | cons wfOutput rest ih =>
    have hrest := ih (fun w hw => hkept w (List.mem_cons_of_mem _ hw))
      (fun w hw => haligned w (List.mem_cons_of_mem _ hw))
    obtain ⟨hnecessary, hnamed⟩ :=
      (wfOutputKept_iff _ _ _).mp (hkept wfOutput (List.mem_cons_self ..))
    unfold cleanUpWorkflowContentOutputs
    rw [if_neg (by simp [hnecessary])]
    split
    · rename_i hname
      rw [hnamed hname,
        alignEndPosition_of_aligned (haligned wfOutput (List.mem_cons_self ..) hname), hrest]
      rfl
    · rw [hrest]

/-- No input is generated for a covered content. -/
theorem WorkflowContent.Covered.addedInputs {content : WorkflowContent V}
    (h : content.Covered) (uuid4 : ℕ → UUID) :
    HetidaDesigner.addedInputs uuid4 content.operators content.links content.constants
      content.inputs = [] := by
  unfold HetidaDesigner.addedInputs
  rw [List.mapIdx_eq_nil_iff, List.filter_eq_nil_iff]
  intro entry hentry hunlinked
  simp only [operatorInputUnlinked, Bool.and_eq_true, Bool.not_eq_true', List.any_eq_false,
    decide_eq_true_eq] at hunlinked
  obtain ⟨⟨⟨hexposed, hinputs⟩, hconstants⟩, hlink⟩ := hunlinked
  rcases h.inputs entry hentry hexposed with ⟨wfInput, hmem, hkey⟩ | ⟨constant, hmem, hkey⟩ |
    ⟨link, hlast, hstart⟩
  · exact hinputs wfInput hmem hkey
  · exact hconstants constant hmem hkey
  · rw [hlast] at hlink
    exact hstart (of_decide_eq_true hlink)

/-- No output is generated for a covered content. -/
theorem WorkflowContent.Covered.addedOutputs {content : WorkflowContent V}
    (h : content.Covered) (uuid4 : ℕ → UUID) :
    HetidaDesigner.addedOutputs uuid4 content.operators content.links content.outputs = [] := by
  unfold HetidaDesigner.addedOutputs
  rw [List.mapIdx_eq_nil_iff, List.filter_eq_nil_iff]
  intro entry hentry hunlinked
  simp only [operatorOutputUnlinked, Bool.and_eq_true, Bool.not_eq_true', List.any_eq_false,
    decide_eq_true_eq] at hunlinked
  obtain ⟨houtputs, hlinks⟩ := hunlinked
  rcases h.outputs entry hentry with ⟨wfOutput, hmem, hkey⟩ | ⟨hne, hfinish⟩
  · exact houtputs wfOutput hmem hkey
  · split at hlinks
    · rename_i hnil
      exact hne hnil
    · obtain ⟨link, hlink, houter⟩ := List.any_eq_true.mp hlinks
      exact hfinish link hlink (of_decide_eq_true houter)

/-- A consistent and settled content is a fixed point of validation. -/
theorem WorkflowContent.Consistent.validate_of_settled [UnicodeData] {content : WorkflowContent V}
    (h : content.Consistent) (hsettled : content.Settled) (uuid4 : ℕ → UUID) :
    content.validate uuid4 = .ok content := by
  have hlinks : linkConnectorsMatchOperatorIos content.operators content.links = content.links :=
    List.filter_eq_self.mpr hsettled.linksMatch
  have houter : cleanUpOuterLinks content.constants content.inputs content.outputs content.links =
      content.links := List.filter_eq_self.mpr h.outerLinks
  unfold WorkflowContent.validate WorkflowContent.validateWith
  simp only [received_all, IoKeys.all_inputs, IoKeys.all_outputs, if_true]
  rw [require_bind_of hsettled.strings, (renameOperators_eq_iff _).mpr hsettled.names]
  simp only [hlinks]
  rw [require_bind_of h.acyclic,
    cleanUpWorkflowContentInputs_of_kept hsettled.inputsKept hsettled.startsAligned]
  simp only [bind, Except.bind, hsettled.covered.addedInputs, List.append_nil, require, h.inputNames, if_true,
    cleanUpWorkflowContentOutputs_of_kept hsettled.outputsKept hsettled.endsAligned,
    hsettled.covered.addedOutputs, h.outputNames, houter, pure, Except.pure]

end HetidaDesigner
