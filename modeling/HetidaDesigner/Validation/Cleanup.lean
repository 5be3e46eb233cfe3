import HetidaDesigner.Models.WorkflowContent

/-!
# What the clean-up of inputs and outputs keeps

The two clean-up loops change link positions while they run. No test of the validators looks
at the position of a link connector once the links match the operators, so both loops come
down to filtering the ios by a test on the links they start with.
-/

namespace HetidaDesigner

open LastEntry

variable {V : Type}

/-! ## Positions of link connectors -/

/-- A link with both connectors moved to the origin, which forgets their positions. -/
def Link.atOrigin (link : Link) : Link :=
  (link.setStartPosition .origin).setFinishPosition .origin

@[simp] theorem Link.atOrigin_start_key (link : Link) : link.atOrigin.start.key = link.start.key :=
  rfl

@[simp] theorem Link.atOrigin_finish_key (link : Link) :
    link.atOrigin.finish.key = link.finish.key := rfl

@[simp] theorem Link.atOrigin_start_operator (link : Link) :
    link.atOrigin.start.operator = link.start.operator := rfl

@[simp] theorem Link.atOrigin_finish_operator (link : Link) :
    link.atOrigin.finish.operator = link.finish.operator := rfl

@[simp] theorem Link.atOrigin_start_toIo (link : Link) :
    link.atOrigin.start.connector.toIo = link.start.connector.toIo := rfl

@[simp] theorem Link.atOrigin_finish_toIo (link : Link) :
    link.atOrigin.finish.connector.toIo = link.finish.connector.toIo := rfl

@[simp] theorem Link.atOrigin_edge (link : Link) : link.atOrigin.edge = link.edge := rfl

/-- Two lists of links which differ in positions at most. -/
def SameButPositions (links links' : List Link) : Prop :=
  links.map Link.atOrigin = links'.map Link.atOrigin

theorem SameButPositions.refl (links : List Link) : SameButPositions links links := rfl

theorem SameButPositions.symm {links links' : List Link} (h : SameButPositions links links') :
    SameButPositions links' links := Eq.symm h

theorem SameButPositions.trans {links links' links'' : List Link}
    (h : SameButPositions links links') (h' : SameButPositions links' links'') :
    SameButPositions links links'' := Eq.trans h h'

/-- A test that ignores positions filters both lists alike. -/
theorem SameButPositions.filter {links links' : List Link} (h : SameButPositions links links')
    {p : Link → Bool} (hp : ∀ link, p link.atOrigin = p link) :
    SameButPositions (links.filter p) (links'.filter p) := by
  have hfilter (l : List Link) :
      (l.filter p).map Link.atOrigin = (l.map Link.atOrigin).filter p := by
    rw [List.filter_map]
    exact congrArg _ (List.filter_congr fun link _ => (hp link).symm)
  rw [SameButPositions, hfilter, hfilter, h]

/-- Data that ignores positions is the same for both lists. -/
theorem SameButPositions.map_eq {links links' : List Link} (h : SameButPositions links links')
    {B : Type*} {f : Link → B} (hf : ∀ link, f link.atOrigin = f link) :
    links.map f = links'.map f := by
  have hmap (l : List Link) : (l.map Link.atOrigin).map f = l.map f := by
    rw [List.map_map]
    exact List.map_congr_left fun link _ => hf link
  rw [← hmap links, ← hmap links', h]

/-- Both lists contain the same links up to positions. -/
theorem SameButPositions.exists_mem {links links' : List Link} (h : SameButPositions links links')
    {link : Link} (hlink : link ∈ links) : ∃ link' ∈ links', link'.atOrigin = link.atOrigin := by
  have hmem : link.atOrigin ∈ links'.map Link.atOrigin := h ▸ List.mem_map_of_mem hlink
  exact List.mem_map.mp hmem

theorem linksByStart_atOrigin (links : List Link) (key : Option UUID × UUID) :
    linksByStart (links.map Link.atOrigin) key = (linksByStart links key).map Link.atOrigin :=
  entries_map (fun _ => rfl) links key

theorem linkByEnd_atOrigin (links : List Link) (key : Option UUID × UUID) :
    linkByEnd (links.map Link.atOrigin) key = (linkByEnd links key).map Link.atOrigin :=
  lastEntry_map (fun link : Link => link.finish.key) (fun _ => rfl) links key

/-- Lookups by start give the same links up to positions. -/
theorem SameButPositions.linksByStart {links links' : List Link} (h : SameButPositions links links')
    (key : Option UUID × UUID) :
    SameButPositions (HetidaDesigner.linksByStart links key)
      (HetidaDesigner.linksByStart links' key) := by
  rw [SameButPositions, ← linksByStart_atOrigin, ← linksByStart_atOrigin, h]

/-- Lookups by end give the same link up to positions. -/
theorem SameButPositions.linkByEnd {links links' : List Link} (h : SameButPositions links links')
    (key : Option UUID × UUID) :
    (HetidaDesigner.linkByEnd links key).map Link.atOrigin =
      (HetidaDesigner.linkByEnd links' key).map Link.atOrigin := by
  rw [← linkByEnd_atOrigin, ← linkByEnd_atOrigin, h]

/-! ## Tests which ignore positions -/

theorem wfInputUnnecessary_atOrigin (operators : List (Operator V)) (links : List Link)
    (wfInput : WorkflowContentDynamicInput V) :
    wfInputUnnecessary operators (links.map Link.atOrigin) wfInput =
      wfInputUnnecessary operators links wfInput := by
  unfold wfInputUnnecessary
  rw [linkByEnd_atOrigin]
  cases linkByEnd links (some wfInput.operatorId, wfInput.connectorId) <;> rfl

theorem namedWfInputUnnecessary_atOrigin (links : List Link)
    (wfInput : WorkflowContentDynamicInput V) :
    namedWfInputUnnecessary (links.map Link.atOrigin) wfInput =
      namedWfInputUnnecessary links wfInput := by
  unfold namedWfInputUnnecessary
  rw [linksByStart_atOrigin]
  rcases linksByStart links (none, wfInput.id) with _ | ⟨link, _ | ⟨second, rest⟩⟩ <;> rfl

theorem operatorInputUnlinked_atOrigin (links : List Link)
    (constants : List WorkflowContentConstantInput) (inputs : List (WorkflowContentDynamicInput V))
    (entry : Operator V × OperatorInput V) :
    operatorInputUnlinked (links.map Link.atOrigin) constants inputs entry =
      operatorInputUnlinked links constants inputs entry := by
  unfold operatorInputUnlinked
  rw [linkByEnd_atOrigin]
  cases linkByEnd links (some entry.1.id, entry.2.id) <;> rfl

theorem wfOutputUnnecessary_atOrigin (operators : List (Operator V)) (links : List Link)
    (wfOutput : WorkflowContentOutput) :
    wfOutputUnnecessary operators (links.map Link.atOrigin) wfOutput =
      wfOutputUnnecessary operators links wfOutput := by
  unfold wfOutputUnnecessary
  rw [linksByStart_atOrigin]
  simp only [List.any_map]
  rfl

theorem namedWfOutputUnnecessary_atOrigin (links : List Link) (wfOutput : WorkflowContentOutput) :
    namedWfOutputUnnecessary (links.map Link.atOrigin) wfOutput =
      namedWfOutputUnnecessary links wfOutput := by
  unfold namedWfOutputUnnecessary
  rw [linkByEnd_atOrigin]
  cases linkByEnd links (none, wfOutput.id) <;> rfl

theorem operatorOutputUnlinked_atOrigin (links : List Link) (outputs : List WorkflowContentOutput)
    (entry : Operator V × OperatorOutput) :
    operatorOutputUnlinked (links.map Link.atOrigin) outputs entry =
      operatorOutputUnlinked links outputs entry := by
  unfold operatorOutputUnlinked
  rw [linksByStart_atOrigin]
  cases linksByStart links (some entry.1.id, entry.2.id) with
  | nil => rfl
  | cons link rest =>
    simp only [List.map_cons, List.any_cons, List.any_map]
    rfl

/-- Adjusting start positions changes positions only. -/
theorem alignStartPosition_sameButPositions (wfInput : WorkflowContentDynamicInput V)
    (links : List Link) : SameButPositions (alignStartPosition wfInput links) links := by
  rw [SameButPositions, alignStartPosition, List.map_map]
  refine List.map_congr_left fun link _ => ?_
  simp only [Function.comp_apply]
  split <;> rfl

/-- Changing the last fitting link changes positions only if the change does. -/
theorem modifyLast_sameButPositions {p : Link → Bool} {f : Link → Link}
    (hf : ∀ link, (f link).atOrigin = link.atOrigin) (links : List Link) :
    SameButPositions (modifyLast p f links) links := by
  induction links with
  | nil => rfl
  | cons link rest ih =>
    unfold modifyLast
    split
    · simp only [SameButPositions, List.map_cons, hf]
    · simp only [SameButPositions, List.map_cons] at ih ⊢
      rw [ih]

/-- Adjusting end positions changes positions only. -/
theorem alignEndPosition_sameButPositions (wfOutput : WorkflowContentOutput) (links : List Link) :
    SameButPositions (alignEndPosition wfOutput links) links := by
  refine modifyLast_sameButPositions (fun link => ?_) links
  split <;> rfl

/-! ## The clean-up loops -/

/-- The test by which the clean-up keeps a dynamic input. -/
def wfInputKept (operators : List (Operator V)) (links : List Link)
    (wfInput : WorkflowContentDynamicInput V) : Bool :=
  !wfInputUnnecessary operators links wfInput &&
    (!wfInput.named ||
      match namedWfInputUnnecessary links wfInput with
      | .ok unnecessary => !unnecessary
      | .error _ => false)

/-- The test by which the clean-up keeps an output. -/
def wfOutputKept (operators : List (Operator V)) (links : List Link)
    (wfOutput : WorkflowContentOutput) : Bool :=
  !wfOutputUnnecessary operators links wfOutput &&
    (!wfOutput.named || !namedWfOutputUnnecessary links wfOutput)

/-- The test on inputs ignores positions of links. -/
theorem SameButPositions.wfInputKept {links links' : List Link} (h : SameButPositions links links')
    (operators : List (Operator V)) :
    HetidaDesigner.wfInputKept operators links = HetidaDesigner.wfInputKept operators links' := by
  funext wfInput
  have hatOrigin (l : List Link) : HetidaDesigner.wfInputKept operators (l.map Link.atOrigin) wfInput =
      HetidaDesigner.wfInputKept operators l wfInput := by
    unfold HetidaDesigner.wfInputKept
    rw [wfInputUnnecessary_atOrigin, namedWfInputUnnecessary_atOrigin]
  rw [← hatOrigin links, ← hatOrigin links', h]

/-- The test on outputs ignores positions of links. -/
theorem SameButPositions.wfOutputKept {links links' : List Link}
    (h : SameButPositions links links') (operators : List (Operator V)) :
    HetidaDesigner.wfOutputKept operators links = HetidaDesigner.wfOutputKept operators links' := by
  funext wfOutput
  have hatOrigin (l : List Link) :
      HetidaDesigner.wfOutputKept operators (l.map Link.atOrigin) wfOutput =
        HetidaDesigner.wfOutputKept operators l wfOutput := by
    unfold HetidaDesigner.wfOutputKept
    rw [wfOutputUnnecessary_atOrigin, namedWfOutputUnnecessary_atOrigin]
  rw [← hatOrigin links, ← hatOrigin links', h]

/-- The clean-up of inputs filters them and moves link connectors. -/
theorem cleanUpWorkflowContentInputs_ok {operators : List (Operator V)} {links links' : List Link}
    {inputs kept : List (WorkflowContentDynamicInput V)}
    (h : cleanUpWorkflowContentInputs operators links inputs = .ok (kept, links')) :
    kept = inputs.filter (wfInputKept operators links) ∧ SameButPositions links' links := by
  induction inputs generalizing links kept links' with
  | nil =>
    obtain ⟨rfl, rfl⟩ := Prod.mk.inj (Except.ok.inj h)
    exact ⟨rfl, .refl _⟩
  | cons wfInput rest ih =>
    unfold cleanUpWorkflowContentInputs at h
    split at h
    · rename_i hunnecessary
      obtain ⟨hkept, hlinks⟩ := ih h
      exact ⟨by simp [wfInputKept, hunnecessary, hkept], hlinks⟩
    · rename_i hnecessary
      split at h
      · rename_i hnamed
        cases hunnecessary : namedWfInputUnnecessary links wfInput with
        | error e => simp [hunnecessary, bind, Except.bind] at h
        | ok unnecessary =>
          have halign := alignStartPosition_sameButPositions wfInput links
          cases hrest : cleanUpWorkflowContentInputs operators
              (alignStartPosition wfInput links) rest with
          | error e => simp [hunnecessary, hrest, bind, Except.bind] at h
          | ok result =>
            obtain ⟨hkept, hlinks⟩ := ih hrest
            simp only [hunnecessary, hrest, bind, Except.bind, pure, Except.pure,
              Except.ok.injEq, Prod.mk.injEq] at h
            obtain ⟨rfl, rfl⟩ := h
            refine ⟨?_, hlinks.trans halign⟩
            rw [hkept, halign.wfInputKept, List.filter_cons]
            cases unnecessary <;> simp [wfInputKept, hnecessary, hnamed, hunnecessary]
      · rename_i hunnamed
        cases hrest : cleanUpWorkflowContentInputs operators links rest with
        | error e => simp [hrest, bind, Except.bind] at h
        | ok result =>
          obtain ⟨hkept, hlinks⟩ := ih hrest
          simp only [hrest, bind, Except.bind, pure, Except.pure, Except.ok.injEq,
            Prod.mk.injEq] at h
          obtain ⟨rfl, rfl⟩ := h
          refine ⟨?_, hlinks⟩
          rw [hkept, List.filter_cons]
          simp [wfInputKept, hnecessary, hunnamed]

/-- The clean-up of outputs filters them and moves link connectors. -/
theorem cleanUpWorkflowContentOutputs_spec (operators : List (Operator V)) (links : List Link)
    (outputs : List WorkflowContentOutput) :
    (cleanUpWorkflowContentOutputs operators links outputs).1 =
        outputs.filter (wfOutputKept operators links) ∧
      SameButPositions (cleanUpWorkflowContentOutputs operators links outputs).2 links := by
  induction outputs generalizing links with
  | nil => exact ⟨rfl, .refl _⟩
  | cons wfOutput rest ih =>
    unfold cleanUpWorkflowContentOutputs
    split
    · rename_i hunnecessary
      obtain ⟨hkept, hlinks⟩ := ih links
      exact ⟨by simp [wfOutputKept, hunnecessary, hkept], hlinks⟩
    · rename_i hnecessary
      split
      · rename_i hnamed
        have halign := alignEndPosition_sameButPositions wfOutput links
        obtain ⟨hkept, hlinks⟩ := ih (alignEndPosition wfOutput links)
        refine ⟨?_, hlinks.trans halign⟩
        simp only [hkept, halign.wfOutputKept, List.filter_cons]
        cases hunnecessary : namedWfOutputUnnecessary links wfOutput <;>
          simp [wfOutputKept, hnecessary, hnamed, hunnecessary]
      · rename_i hunnamed
        obtain ⟨hkept, hlinks⟩ := ih links
        refine ⟨?_, hlinks⟩
        simp only [hkept, List.filter_cons]
        simp [wfOutputKept, hnecessary, hunnamed]

end HetidaDesigner
