import HetidaDesigner.Backend.Lowering

/-!
# Prepared workflow nodes

Contents which are read from the store have been validated, so their links have no cycles. If they
are identifiable as well, which can be decided, the node which is handed to the runtime is lowered
from them, hence well-formed and without cycles.
-/

namespace HetidaDesigner

open Checks EdgeList KeyedList LastEntry

/-! ## Deciding which contents are identifiable -/

section Deciding

variable {V : Type}

/-- Conditions on optional values can be decided. -/
@[reducible] def decidableForallSome {A : Type} (a? : Option A) (P : A → Prop) [DecidablePred P] :
    Decidable (∀ a, a? = some a → P a) :=
  inferInstanceAs (Decidable (∀ a ∈ a?, P a))

attribute [local instance] decidableForallSome

instance (operators : List (Operator V)) (key : UUID × UUID) :
    Decidable (HasInput operators key) :=
  decidable_of_iff (∃ entry ∈ inputConnectors operators, entry.1 = key) (by simp [HasInput])

/-- Exposed inputs among all inputs. -/
theorem exists_exposed_iff {operators : List (Operator V)} {key : UUID × UUID} :
    (∃ entry ∈ inputConnectors operators, entry.1 = key ∧ entry.2.exposed = true) ↔
      HasExposedInput operators key := by
  constructor
  · rintro ⟨entry, hentry, rfl, hexposed⟩
    exact ⟨entry.2, hentry, hexposed⟩
  · rintro ⟨input, hinput, hexposed⟩
    exact ⟨(key, input), hinput, rfl, hexposed⟩

instance (operators : List (Operator V)) (key : UUID × UUID) :
    Decidable (HasExposedInput operators key) :=
  decidable_of_iff _ exists_exposed_iff

instance (operators : List (Operator V)) (key : UUID × UUID) :
    Decidable (HasOutput operators key) :=
  decidable_of_iff (∃ entry ∈ outputConnectors operators, entry.1 = key) (by simp [HasOutput])

/-- All connectors under a key among all connectors. -/
theorem forall_names_iff {names : List ((UUID × UUID) × Option PyStr)} {key : UUID × UUID}
    {name : Option PyStr} :
    ((key, name) ∈ names ∧ ∀ entry ∈ names, entry.1 = key → entry.2 = name) ↔
      CarriesName names key name := by
  refine and_congr_right fun _ => ⟨fun h other hother => h (key, other) hother rfl, ?_⟩
  rintro h entry hentry rfl
  exact h entry.2 hentry

instance (names : List ((UUID × UUID) × Option PyStr)) (key : UUID × UUID) (name : Option PyStr) :
    Decidable (CarriesName names key name) :=
  decidable_of_iff _ forall_names_iff

instance (operators : List (Operator V)) (link : Link) : Decidable (link.CarriesNames operators) :=
  inferInstanceAs (Decidable (_ ∧ _))

/-- Sources of exposed inputs are counted for the inputs which are there. -/
theorem forall_exposed_iff {operators : List (Operator V)} {P : UUID × UUID → Prop} :
    (∀ key, HasExposedInput operators key → P key) ↔
      ∀ entry ∈ inputConnectors operators, entry.2.exposed = true → P entry.1 := by
  constructor
  · intro h entry hentry hexposed
    exact h entry.1 ⟨entry.2, hentry, hexposed⟩
  · rintro h key ⟨input, hinput, hexposed⟩
    exact h (key, input) hinput hexposed

instance (content : WorkflowContent V) : Decidable content.WellFormed :=
  decidable_of_iff
    ((∀ link ∈ content.links, ∀ operator, link.start.operator = some operator →
        HasOutput content.operators (operator, link.start.connector.id)) ∧
      (∀ link ∈ content.links, ∀ operator, link.finish.operator = some operator →
        HasExposedInput content.operators (operator, link.finish.connector.id)) ∧
      (content.links.map fun link => link.finish.key).Nodup ∧
      (∀ entry ∈ inputConnectors content.operators, entry.2.exposed = true →
        sourceCount content.links content.constants content.inputs entry.1 = 1) ∧
      (∀ wfInput ∈ content.inputs, HasInput content.operators wfInput.key) ∧
      (∀ constant ∈ content.constants, HasInput content.operators constant.key) ∧
      (∀ wfOutput ∈ content.outputs, HasOutput content.operators wfOutput.key) ∧
      (∀ link ∈ content.links, link.start.operator = none →
        (∃ constant ∈ content.constants, constant.id = link.start.connector.id) ∨
          ∃ wfInput ∈ content.inputs, wfInput.id = link.start.connector.id) ∧
      ∀ link ∈ content.links, link.finish.operator = none →
        ∃ wfOutput ∈ content.outputs, wfOutput.id = link.finish.connector.id) <| by
    constructor
    · rintro ⟨h₁, h₂, h₃, h₄, h₅, h₆, h₇, h₈, h₉⟩
      exact ⟨h₁, h₂, h₃, forall_exposed_iff.mpr h₄, h₅, h₆, h₇, h₈, h₉⟩
    · rintro ⟨h₁, h₂, h₃, h₄, h₅, h₆, h₇, h₈, h₉⟩
      exact ⟨h₁, h₂, h₃, forall_exposed_iff.mp h₄, h₅, h₆, h₇, h₈, h₉⟩

instance (content : WorkflowContent V) : Decidable content.Identifiable :=
  decidable_of_iff
    (content.WellFormed ∧ (content.operators.map fun operator => operator.id).Nodup ∧
      (∀ operator ∈ content.operators, (operator.inputs.map fun input => input.name).Nodup) ∧
      (∀ io ∈ content.inputIos, HasExposedInput content.operators io.key) ∧
      (∀ io ∈ content.inputIos,
        CarriesName (inputConnectorNames content.operators) io.key io.connectorName) ∧
      (∀ wfOutput ∈ content.outputs,
        CarriesName (outputConnectorNames content.operators) wfOutput.key
          wfOutput.connectorName) ∧
      (∀ link ∈ content.links.filter Link.inner, link.CarriesNames content.operators) ∧
      (∀ wfInput ∈ content.inputs, ∀ name, wfInput.name = some name → '-' ∉ name) ∧
      ∀ operator ∈ content.operators, ∀ input ∈ operator.inputs, ∀ name,
        input.name = some name → '-' ∉ name) <| by
    constructor
    · rintro ⟨h₁, h₂, h₃, h₄, h₅, h₆, h₇, h₈, h₉⟩
      exact ⟨h₁, h₂, h₃, h₄, h₅, h₆, h₇, h₈, h₉⟩
    · rintro ⟨h₁, h₂, h₃, h₄, h₅, h₆, h₇, h₈, h₉⟩
      exact ⟨h₁, h₂, h₃, h₄, h₅, h₆, h₇, h₈, h₉⟩

end Deciding

/-! ## Prepared nodes -/

section Prepared

variable {V J C : Type} [UnicodeData] [DecidableEq V] [DecidableEq J]
  {tools : PreparationTools V J} {config : WiringConfig} {db : Database V (WiringData J)}
  {uuid4 : UUID → ℕ → UUID}

omit [DecidableEq V] in
/-- Contents which have been validated have no cycles, and names are unique. -/
theorem checked_of_validateWorkflowContent {draws : ℕ → UUID} {state : State}
    {data content : WorkflowContent V} (h : validateWorkflowContent draws state data = .ok content) :
    content.Checked := by
  obtain ⟨accepted, haccepted, h⟩ := bind_eq_ok.mp h
  obtain ⟨-, -, h⟩ := bind_eq_ok.mp h
  obtain rfl := return_eq_ok.mp h
  have hvalid := WorkflowContent.accepted_of_validate haccepted
  exact ⟨hvalid.linksAcyclic, hvalid.inputNames, hvalid.outputNames⟩

/-- Contents of revisions which are read have been validated. -/
theorem checked_of_readRevision {id : UUID} {revision : Revision V (WiringData J)}
    (h : readRevision config db uuid4 id = .ok revision) {content : WorkflowContent V}
    (hcontent : requireWorkflow revision = .ok content) : content.Checked := by
  obtain ⟨selected, hselected, testWiring, -, releaseWiring, -, rfl⟩ := readRevision_eq_ok.mp h
  obtain ⟨row, -, hvalidate⟩ := Database.selectTrById_eq_ok.mp hselected
  obtain ⟨htype, hkind⟩ := requireWorkflow_eq_ok.mp hcontent
  obtain ⟨hrow, data, hdata⟩ := TransformationRevision.exists_content_of_validateWith hvalidate htype
  obtain ⟨-, validated, hvalidated, rfl⟩ :=
    (TransformationRevision.validate_eq_ok_iff hrow hdata).mp hvalidate
  obtain rfl := Content.workflow.inj hkind
  exact checked_of_validateWorkflowContent hvalidated

/-- The nested revisions of a loaded workflow under their ids. -/
def LoadedWorkflow.nested (loaded : LoadedWorkflow V J) (id : UUID) :
    Option (Revision V (WiringData J)) :=
  (lastEntry Prod.fst loaded.nestedTransformations id).map Prod.snd

/-- The contents of a loaded workflow and of those nested in it. -/
def LoadedWorkflow.Contents (loaded : LoadedWorkflow V J) (content : WorkflowContent V) : Prop :=
  ∃ revision ∈ loaded.trWorkflow :: loaded.nestedTransformations.map Prod.snd,
    requireWorkflow revision = .ok content

/-- All contents of a loaded workflow have been validated. -/
theorem LoadedWorkflow.checked {id : UUID} {loaded : LoadedWorkflow V J}
    (h : loadWorkflow tools db (databaseReader config db uuid4) id = .ok loaded)
    {content : WorkflowContent V} (hcontent : loaded.Contents content) : content.Checked := by
  obtain ⟨revision, hrevision, hcontent⟩ := hcontent
  obtain ⟨read, hread, h⟩ := bind_eq_ok.mp h
  have hread := mapError_eq_ok.mp hread
  split at h
  · rename_i htype
    obtain ⟨wrapper, hwrapper, h⟩ := bind_eq_ok.mp h
    obtain rfl := return_eq_ok.mp h
    rcases List.mem_cons.mp hrevision with rfl | hrevision
    · obtain ⟨validated, hvalidated, hwrapper⟩ := bind_eq_ok.mp (mapError_eq_ok.mp hwrapper)
      simp only [TransformationRevision.validateWithContent, require_bind_eq_ok] at hwrapper
      obtain ⟨-, -, -, -, -, hwrapper⟩ := hwrapper
      obtain ⟨-, -, hwrapper⟩ := bind_eq_ok.mp hwrapper
      obtain rfl := return_eq_ok.mp hwrapper
      obtain rfl := Except.ok.inj hcontent
      have hvalid := WorkflowContent.accepted_of_validate hvalidated
      exact ⟨hvalid.linksAcyclic, hvalid.inputNames, hvalid.outputNames⟩
    · obtain rfl := List.mem_singleton.mp hrevision
      rw [(requireWorkflow_eq_ok.mp hcontent).1] at htype
      cases htype
  · obtain ⟨nested, hnested, h⟩ := bind_eq_ok.mp h
    obtain rfl := return_eq_ok.mp h
    rcases List.mem_cons.mp hrevision with rfl | hrevision
    · exact checked_of_readRevision hread hcontent
    · obtain ⟨entry, hentry, rfl⟩ := List.mem_map.mp hrevision
      obtain ⟨entries, hentries, hnested⟩ := bind_eq_ok.mp (mapError_eq_ok.mp hnested)
      obtain rfl := return_eq_ok.mp hnested
      obtain ⟨nestedId, -, hok⟩ := exists_argument_of_mapM hentries (mem_of_mem_dictById hentry)
      obtain ⟨nested, hnested, rfl⟩ := map_eq_ok.mp hok
      exact checked_of_readRevision hnested hcontent

omit [UnicodeData] [DecidableEq V] [DecidableEq J] in
/-- The node of a loaded workflow is lowered from its content. -/
theorem LoadedWorkflow.loweredFrom {loaded : LoadedWorkflow V J}
    (hcontents : ∀ content, loaded.Contents content → content.Identifiable ∧ content.Checked)
    {levels : ℕ} {workflow : SubNode V}
    (h : (loaded.toWorkflowNode tools levels).run = some (.ok workflow)) :
    ∃ content, requireWorkflow loaded.trWorkflow = .ok content ∧
      NestedIdentifiable loaded.nested ∧
        LoweredFrom tools.text loaded.nested (.workflow content) workflow := by
  obtain ⟨subNodes, hsubNodes, h⟩ := run_bind_eq_ok.mp h
  obtain ⟨content, hcontent, h⟩ := run_bind_eq_ok.mp h
  have hcontent := eq_ok_of_run_liftM hcontent
  obtain ⟨content', hcontent', hsubNodes⟩ := run_bind_eq_ok.mp hsubNodes
  obtain rfl := Except.ok.inj (hcontent.symm.trans (eq_ok_of_run_liftM hcontent'))
  obtain ⟨children, hchildren, hsubNodes⟩ := run_bind_eq_ok.mp hsubNodes
  obtain ⟨node, rfl, -, hbuilt⟩ := builtFrom_of_toWorkflowNode (eq_ok_of_run_liftM h)
  refine ⟨content, hcontent, ?_, hcontents content ⟨_, List.mem_cons_self, hcontent⟩, levels,
    .workflow hbuilt (eq_ok_of_run_liftM hchildren) hsubNodes⟩
  intro id revision nestedContent hrevision hnestedContent
  obtain ⟨entry, hentry, rfl⟩ := Option.map_eq_some_iff.mp hrevision
  exact hcontents nestedContent ⟨entry.2, List.mem_cons_of_mem _
    (List.mem_map_of_mem (mem_of_lastEntry hentry).1), hnestedContent⟩

/-- The node of a prepared input is lowered from the content which is loaded, and its wiring has been
completed. -/
theorem exists_lowered_of_prepareExecutionInput {levels : PreparationLevels}
    {request : ExecByIdInput J C} {input : WorkflowExecutionInput V J C}
    (h : prepareExecutionInput tools db (databaseReader config db uuid4) levels request =
      some (.ok input))
    (hcontents : ∀ loaded, loadWorkflow tools db (databaseReader config db uuid4) request.id =
      .ok loaded → ∀ content, loaded.Contents content → content.Identifiable) :
    ∃ loaded content wiring,
      loadWorkflow tools db (databaseReader config db uuid4) request.id = .ok loaded ∧
      requireWorkflow loaded.trWorkflow = .ok content ∧ NestedIdentifiable loaded.nested ∧
      LoweredFrom tools.text loaded.nested (.workflow content) input.workflow ∧
      checkWiringComplete input.workflow wiring = .ok input.workflowWiring := by
  obtain ⟨loaded, hloaded, workflow, hworkflow, adapter, -, components, -, hinput⟩ :=
    prepareExecutionInput_eq_ok.mp h
  obtain ⟨runtimeComponents, -, completed, hcompleted, rfl⟩ := buildExecutionInput_eq_ok.mp hinput
  obtain ⟨content, hcontent, hnested, hlowered⟩ := LoadedWorkflow.loweredFrom (fun content hcontent =>
    ⟨hcontents loaded hloaded content hcontent, LoadedWorkflow.checked hloaded hcontent⟩) hworkflow
  exact ⟨loaded, content, _, hloaded, hcontent, hnested, hlowered, hcompleted⟩

/-- If the contents which are loaded are identifiable, the node which is handed to the runtime is
well-formed, and no level of it has a cycle. -/
theorem workflow_of_prepareExecutionInput {levels : PreparationLevels}
    {request : ExecByIdInput J C} {input : WorkflowExecutionInput V J C}
    (h : prepareExecutionInput tools db (databaseReader config db uuid4) levels request =
      some (.ok input)) (htext : tools.text.UuidTexts)
    (hcontents : ∀ loaded, loadWorkflow tools db (databaseReader config db uuid4) request.id =
      .ok loaded → ∀ content, loaded.Contents content → content.Identifiable) :
    input.workflow.WellFormed ∧ ∀ path node subNodes,
      input.workflow.nodeAt path = some (.workflow node subNodes) →
        Acyclic (node.connections.map fun connection =>
          (connection.inputInWorkflowId, connection.outputInWorkflowId)) := by
  obtain ⟨loaded, content, wiring, -, -, hnested, hlowered, -⟩ :=
    exists_lowered_of_prepareExecutionInput h hcontents
  exact ⟨hlowered.wellFormed htext hnested,
    fun path node subNodes hnode => hlowered.acyclic htext hnested hnode⟩

end Prepared

/-! ## A nested sum -/

section Sums

attribute [local instance] asciiOnly

/-- A connector for numbers. -/
def sumConnector (id : UUID) (name : Char) : Connector where
  id := id
  name := some [name]
  dataType := .float
  position := ⟨0, 0⟩

/-- An operator with one input and one output, whose ids follow its own id. -/
def sumOperator (id : UUID) (name : Char) (type : TrafoType) (transformationId : UUID)
    (input output : Char) : Operator ℤ where
  id := id
  revisionGroupId := transformationId
  name := [name]
  type := type
  state := .released
  versionTag := ['1']
  transformationId := transformationId
  inputs := [{
    toConnector := sumConnector (id + 1) input
    type := .required
    value := none
    value_set_only_for_optional_input := InputType.required_without_value
    exposed := true
    required_inputs_exposed := fun _ => rfl }]
  outputs := [sumConnector (id + 2) output]
  position := ⟨0, 0⟩

/-- An input of a workflow which is passed to the input of an operator. -/
def sumWfInput (id : UUID) (name : Char) (operator : Operator ℤ) (connectorName : Char) :
    WorkflowContentDynamicInput ℤ where
  toConnector := sumConnector id name
  operatorId := operator.id
  connectorId := operator.id + 1
  operatorName := operator.name
  connectorName := some [connectorName]
  type := .required
  value := none
  value_set_only_for_optional_input := InputType.required_without_value

/-- An output of a workflow which comes from the output of an operator. -/
def sumWfOutput (id : UUID) (name : Char) (operator : Operator ℤ) (connectorName : Char) :
    WorkflowContentOutput where
  toConnector := sumConnector id name
  operatorId := operator.id
  connectorId := operator.id + 2
  operatorName := operator.name
  connectorName := some [connectorName]

/-- A link between connectors for numbers. -/
def sumLink (id : UUID) (start : Option UUID × UUID × Char) (finish : Option UUID × UUID × Char)
    (no_self_reference : start.1 ≠ finish.1)
    (no_link_without_operator : ¬ (start.1 = none ∧ finish.1 = none)) : Link where
  id := id
  start := ⟨start.1, sumConnector start.2.1 start.2.2⟩
  finish := ⟨finish.1, sumConnector finish.2.1 finish.2.2⟩
  path := []
  types_match := Or.inl rfl
  no_self_reference := no_self_reference
  no_link_without_operator := no_link_without_operator

/-- An operator for the component 1. -/
def componentOperator (id : UUID) : Operator ℤ := sumOperator id 'A' .component 1 'a' 's'

/-- An operator for the workflow 4. -/
def nestedOperator : Operator ℤ := sumOperator 20 'B' .workflow 4 'x' 'y'

/-- A content with the component 1. -/
def innerContent : WorkflowContent ℤ where
  operators := [componentOperator 10]
  links := [sumLink 13 (none, 15, 'x') (some 10, 11, 'a') (by decide) (by decide),
    sumLink 14 (some 10, 12, 's') (none, 16, 'y') (by decide) (by decide)]
  inputs := [sumWfInput 15 'x' (componentOperator 10) 'a']
  outputs := [sumWfOutput 16 'y' (componentOperator 10) 's']
  constants := []

/-- A content with the workflow 4, whose output is linked to the component 1. -/
def outerContent : WorkflowContent ℤ where
  operators := [nestedOperator, componentOperator 30]
  links := [sumLink 23 (none, 25, 'x') (some 20, 21, 'x') (by decide) (by decide),
    sumLink 24 (some 20, 22, 'y') (some 30, 31, 'a') (by decide) (by decide),
    sumLink 33 (some 30, 32, 's') (none, 26, 'z') (by decide) (by decide)]
  inputs := [sumWfInput 25 'x' nestedOperator 'x']
  outputs := [sumWfOutput 26 'z' (componentOperator 30) 's']
  constants := []

/-- A released workflow with a content. -/
def sumWorkflow (id : UUID) (content : WorkflowContent ℤ) : Revision ℤ (WiringData ℤ) :=
  { componentOfX with
    id := id
    type := .workflow
    content := .workflow content
    ioInterface := ⟨content.inputs.map WorkflowContentDynamicInput.toTransformationInput,
      content.outputs.map WorkflowContentIo.toTransformationOutput⟩
    testWiring := ⟨[], [], []⟩ }

/-- A store with the component 1 and the workflows 4 and 5. -/
def sumDb : Database ℤ (WiringData ℤ) where
  revisions := [componentOfX, sumWorkflow 4 innerContent, sumWorkflow 5 outerContent]
  nestings := [⟨4, 1, 10, 1, 1, 10⟩, ⟨5, 4, 20, 1, 4, 20⟩, ⟨5, 4, 20, 2, 1, 10⟩,
    ⟨5, 1, 30, 1, 1, 30⟩]
  ids_unique := by decide
  nesting_keys_unique := by decide
  references_exist := by decide

/-- Reading revisions of this store. -/
abbrev sumReader : TrafoReader ℤ (WiringData ℤ) :=
  databaseReader plainWiringConfig sumDb fun _ => uuid4Above 1000

/-- A request for the execution of the workflow 5. -/
def sumRequest : ExecByIdInput ℤ Unit :=
  ⟨5, some ⟨[wiringOfX (.int 2) ['v']], [], []⟩, false, 9, ()⟩

/-- What is loaded for the workflow 5. -/
theorem sumDb_loaded {loaded : LoadedWorkflow ℤ ℤ}
    (h : loadWorkflow plainPreparationTools sumDb sumReader sumRequest.id = .ok loaded) :
    ((loaded.trWorkflow :: loaded.nestedTransformations.map Prod.snd).filterMap
        fun revision => (requireWorkflow revision).toOption) = [outerContent, innerContent] ∧
      nestedOperator.storedNode loaded.nested = some (.workflow innerContent) ∧
      ∀ id, (componentOperator id).storedNode loaded.nested = some (.component 1) := by
  have hall : (loadWorkflow plainPreparationTools sumDb sumReader sumRequest.id).map (fun loaded =>
      (((loaded.trWorkflow :: loaded.nestedTransformations.map Prod.snd).filterMap
          fun revision => (requireWorkflow revision).toOption),
        nestedOperator.storedNode loaded.nested, (componentOperator 0).storedNode loaded.nested)) =
      .ok ([outerContent, innerContent], some (.workflow innerContent), some (.component 1)) := by
    decide +kernel
  rw [h] at hall
  obtain ⟨hcontents, hrest⟩ := Prod.mk.inj (Except.ok.inj hall)
  obtain ⟨hnested, hcomponent⟩ := Prod.mk.inj hrest
  exact ⟨hcontents, hnested, fun id => hcomponent⟩

/-- The contents which are loaded for the workflow 5. -/
theorem sumDb_contents {loaded : LoadedWorkflow ℤ ℤ}
    (h : loadWorkflow plainPreparationTools sumDb sumReader sumRequest.id = .ok loaded)
    {content : WorkflowContent ℤ} (hcontent : loaded.Contents content) :
    content = outerContent ∨ content = innerContent := by
  obtain ⟨revision, hrevision, hcontent⟩ := hcontent
  have hmem : content ∈ (loaded.trWorkflow :: loaded.nestedTransformations.map Prod.snd).filterMap
      fun revision => (requireWorkflow revision).toOption :=
    List.mem_filterMap.mpr ⟨revision, hrevision, by rw [hcontent]; rfl⟩
  rw [(sumDb_loaded h).1] at hmem
  exact List.mem_pair.mp hmem

/-- They are identifiable. -/
theorem sumDb_identifiable (loaded : LoadedWorkflow ℤ ℤ)
    (h : loadWorkflow plainPreparationTools sumDb sumReader sumRequest.id = .ok loaded)
    (content : WorkflowContent ℤ) (hcontent : loaded.Contents content) : content.Identifiable := by
  rcases sumDb_contents h hcontent with rfl | rfl <;> decide +kernel

/-- Canonical texts of ids. -/
theorem plainText_uuidTexts : plainPreparationTools.text.UuidTexts where
  injective := uuidStr_injective
  underscore := fun id hmem => by
    rcases mem_of_uuidStr id _ hmem with h | h
    · exact absurd h (by decide)
    · exact absurd h (by decide)
  dash := fun id => by
    simp [plainPreparationTools, uuidStr]

/-- Instance of `workflow_of_prepareExecutionInput`. -/
theorem outerContent_prepared : ∃ input,
    prepareExecutionInput plainPreparationTools sumDb sumReader ⟨5, 5⟩ sumRequest =
      some (.ok input) ∧
    input.workflow.WellFormed ∧ ∀ path node subNodes,
      input.workflow.nodeAt path = some (.workflow node subNodes) →
        Acyclic (node.connections.map fun connection =>
          (connection.inputInWorkflowId, connection.outputInWorkflowId)) := by
  have hprepared : (prepareExecutionInput plainPreparationTools sumDb sumReader ⟨5, 5⟩
      sumRequest).map (Except.map fun _ => ()) = some (.ok ()) := by
    decide +kernel
  obtain ⟨result, hresult, hmap⟩ := Option.map_eq_some_iff.mp hprepared
  obtain ⟨input, rfl, -⟩ := map_eq_ok.mp hmap
  exact ⟨input, hresult,
    workflow_of_prepareExecutionInput hresult plainText_uuidTexts sumDb_identifiable⟩

end Sums

end HetidaDesigner
