import HetidaDesigner.Backend.ReadingMonotone
import HetidaDesigner.Wirings.Described

/-!
# Falling back to the test wiring

A request without wiring is executed with the stored test wiring, which is not resolved then,
whereas a wiring in the request is. So the request without wiring and the one with the test wiring
hand the same wiring to the runtime only if the virtual wirings in it describe themselves, or if
neither of them gets as far as the runtime.
-/

namespace HetidaDesigner

open Checks

variable {V J C D : Type}

/-! ## What can be built -/

/-- Revisions with distinct ids are converted if each of them can be. -/
theorem exists_executionComponents_iff {components : List (Revision V D)}
    (hids : (components.map fun trafo => trafo.id).Nodup) :
    (∃ runtimeComponents, executionComponents components = .ok runtimeComponents) ↔
      ∀ trafo ∈ components, (∃ codeModule, trafo.toCodeModule = .ok codeModule) ∧
        ∃ component, trafo.toComponentRevision = .ok component := by
  constructor
  · rintro ⟨runtimeComponents, h⟩ trafo htrafo
    obtain ⟨codeModules, hcodeModules, h⟩ := bind_eq_ok.mp h
    obtain ⟨revisions, hrevisions, -⟩ := bind_eq_ok.mp h
    obtain ⟨codeModule, -, hcode⟩ := exists_of_mapM hcodeModules htrafo
    obtain ⟨component, -, hcomponent⟩ := exists_of_mapM hrevisions htrafo
    exact ⟨⟨codeModule, hcode⟩, component, hcomponent⟩
  · intro h
    obtain ⟨codeModules, hcodeModules⟩ := exists_mapM fun trafo htrafo => (h trafo htrafo).1
    obtain ⟨revisions, hrevisions⟩ := exists_mapM fun trafo htrafo => (h trafo htrafo).2
    have huuids : (codeModules.map fun codeModule => codeModule.uuid) =
        components.map fun trafo => trafo.id := by
      have hall := mapM_eq_ok.mp hcodeModules
      clear * - hall
      induction hall with
      | nil => rfl
      | cons hfirst _ ih => rw [List.map_cons, List.map_cons, ih, (toCodeModule_uuid hfirst).1]
    have hunique : (codeModules.dedup.map fun codeModule => codeModule.uuid).Nodup :=
      (huuids ▸ hids).sublist ((List.dedup_sublist codeModules).map _)
    have hunique' := dictById_nodup (fun component : ComponentRevision V => component.uuid) revisions
    have hboth := And.intro hunique hunique'
    refine ⟨_, bind_eq_ok.mpr ⟨codeModules, hcodeModules, bind_eq_ok.mpr
      ⟨revisions, hrevisions, dif_pos hboth⟩⟩⟩

section Fewer

variable {read : UUID → Except StoreError (Revision V (WiringData J))}
  (hids : ∀ id revision, read id = .ok revision → revision.id = id)
  {tools : PreparationTools V J}

include hids

/-- Fewer components are gathered for fewer components used by the wiring, and the input can still
be built of them. -/
theorem exists_gathered_of_subset {nested adapter adapter' : List (Revision V (WiringData J))}
    (hnested : ReadBy read nested) (hadapter : ReadBy read adapter') (hsub : adapter ⊆ adapter')
    {levels' : ℕ} {components' : List (Revision V (WiringData J))}
    (hgather : gatherComponents tools (uniformReader read) levels' nested adapter' =
      some (.ok components')) {runtimeComponents' : ExecutionComponents V}
    (hbuild : executionComponents components' = .ok runtimeComponents') :
    ∃ levels components runtimeComponents,
      gatherComponents tools (uniformReader read) levels nested adapter = some (.ok components) ∧
        executionComponents components = .ok runtimeComponents := by
  obtain ⟨result, hresult, hmap⟩ := Option.map_eq_some_iff.mp hgather
  obtain ⟨imported', himported', rfl⟩ := map_eq_ok.mp hmap
  rw [mapError_eq_ok.mp himported'] at hresult
  have hgiven : ReadBy read (nested ++ adapter') := by
    intro trafo htrafo
    rcases List.mem_append.mp htrafo with htrafo | htrafo
    · exact hnested trafo htrafo
    · exact hadapter trafo htrafo
  have hgivenSub : nested ++ adapter ⊆ nested ++ adapter' :=
    List.append_subset.mpr ⟨List.subset_append_left _ _,
      List.subset_append_of_subset_right _ hsub⟩
  obtain ⟨levels, imported, himported, himportedSub⟩ :=
    exists_imports_of_subset hgiven hgivenSub hresult
  have hall' : ReadBy read (nested ++ adapter' ++ imported') := by
    intro trafo htrafo
    rcases List.mem_append.mp htrafo with htrafo | htrafo
    · exact hgiven trafo htrafo
    · exact readBy_of_imported hids hresult trafo htrafo
  have hallSub : nested ++ adapter ++ imported ⊆ nested ++ adapter' ++ imported' :=
    List.append_subset.mpr ⟨List.subset_append_of_subset_left _ hgivenSub,
      List.subset_append_of_subset_right _ himportedSub⟩
  have hconvert := (exists_executionComponents_iff (dictById_nodup _ _)).mp ⟨_, hbuild⟩
  obtain ⟨runtimeComponents, hruntime⟩ := (exists_executionComponents_iff
      (dictById_nodup (fun trafo => trafo.id) (nested ++ adapter ++ imported))).mpr
    fun trafo htrafo => hconvert trafo
      (hall'.mem_dictById_iff.mpr (hallSub (mem_of_mem_dictById htrafo)))
  refine ⟨levels, _, runtimeComponents, ?_, hruntime⟩
  rw [gatherComponents, himported]
  rfl

variable [UnicodeData] [DecidableEq V] {db : Database V (WiringData J)}
  {request : ExecByIdInput J C}

/-- A loaded workflow is that of the revision which is read, with components as they are read. -/
theorem readBy_of_loadWorkflow {id : UUID} {loaded : LoadedWorkflow V J}
    (h : loadWorkflow tools db (uniformReader read) id = .ok loaded) :
    read id = .ok loaded.transformationRevision ∧ ReadBy read loaded.nestedComponents := by
  obtain ⟨revision, hrevision, h⟩ := bind_eq_ok.mp h
  have hread : read id = .ok revision := mapError_eq_ok.mp hrevision
  have hnested (nested : List (UUID × Revision V (WiringData J)))
      (hall : ∀ entry ∈ nested, read entry.1 = .ok entry.2) (loaded : LoadedWorkflow V J)
      (hloaded : loaded.nestedTransformations = nested) : ReadBy read loaded.nestedComponents := by
    intro trafo htrafo
    obtain ⟨htrafo, -⟩ := List.mem_filter.mp (mem_of_mem_dictById htrafo)
    obtain ⟨entry, hentry, rfl⟩ := List.mem_map.mp htrafo
    have hentryRead := hall entry (hloaded ▸ hentry)
    rwa [hids _ _ hentryRead]
  split at h
  · obtain ⟨wrapper, -, h⟩ := bind_eq_ok.mp h
    obtain rfl := return_eq_ok.mp h
    refine ⟨hread, hnested [(revision.id, revision)] (fun entry hentry => ?_) _ rfl⟩
    rw [List.mem_singleton.mp hentry, hids _ _ hread]
    exact hread
  · obtain ⟨nested, hmultiple, h⟩ := bind_eq_ok.mp h
    obtain rfl := return_eq_ok.mp h
    have hmultiple' := mapError_eq_ok.mp hmultiple
    exact ⟨hread, hnested nested
      (fun entry hentry => ((mem_of_readMultiple hmultiple').mp hentry).2) _ rfl⟩

/-- An input can be prepared for a wiring which uses fewer components and has the same names. -/
theorem UsesFewer.exists_prepared {wiring wiring' : WorkflowWiring (WiringData J)}
    (hfewer : UsesFewer wiring wiring')
    (hinputs : wiredNames wiring.inputWirings = wiredNames wiring'.inputWirings)
    (houtputs : wiredNames wiring.outputWirings = wiredNames wiring'.outputWirings)
    {completed' : WorkflowWiring (WiringData J)}
    (h : PreparesWiring tools db (uniformReader read) { request with wiring := some wiring' }
      completed') :
    ∃ completed, PreparesWiring tools db (uniformReader read)
      { request with wiring := some wiring } completed := by
  obtain ⟨levels', input', hprepare, -⟩ := h
  obtain ⟨loaded, hloaded, workflow, hworkflow, adapter', hadapter', components', hcomponents',
    hbuild⟩ := prepareExecutionInput_eq_ok.mp hprepare
  obtain ⟨runtimeComponents', hruntime', completed', hcompleted', -⟩ :=
    buildExecutionInput_eq_ok.mp hbuild
  obtain ⟨adapter, hadapter, hsub⟩ := hfewer.exists_loaded hadapter'
  obtain ⟨-, hnested⟩ := readBy_of_loadWorkflow hids hloaded
  obtain ⟨levels, components, runtimeComponents, hcomponents, hruntime⟩ :=
    exists_gathered_of_subset hids hnested (readBy_of_loaded hids hadapter') hsub hcomponents'
      hruntime'
  obtain ⟨completed, hcompleted⟩ := exists_completed_of_names hinputs houtputs hcompleted'
  exact ⟨completed, ⟨levels'.nodes, levels⟩, _, prepareExecutionInput_eq_ok.mpr ⟨loaded, hloaded,
    workflow, hworkflow, adapter, hadapter, components, hcomponents,
    buildExecutionInput_eq_ok.mpr ⟨runtimeComponents, hruntime, completed, hcompleted, rfl⟩⟩, rfl⟩

/-- Without a wiring the test wiring of the revision is used. -/
theorem preparesWiring_none_iff {revision : Revision V (WiringData J)}
    (hread : read request.id = .ok revision) {wiring : WorkflowWiring (WiringData J)} :
    PreparesWiring tools db (uniformReader read) { request with wiring := none } wiring ↔
      PreparesWiring tools db (uniformReader read)
        { request with wiring := some revision.testWiring } wiring := by
  have htest (loaded : LoadedWorkflow V J)
      (h : loadWorkflow tools db (uniformReader read) request.id = .ok loaded) :
      loaded.transformationRevision.testWiring = revision.testWiring := by
    obtain ⟨hloaded, -⟩ := readBy_of_loadWorkflow hids h
    rw [Except.ok.inj (hloaded.symm.trans hread)]
  unfold PreparesWiring
  refine exists_congr fun levels => exists_congr fun input => and_congr_left fun _ => ?_
  rw [prepareExecutionInput_eq_ok, prepareExecutionInput_eq_ok]
  refine exists_congr fun loaded => and_congr_right fun hloaded => ?_
  dsimp only
  rw [Option.getD_none, Option.getD_some, htest loaded hloaded]
  rfl

end Fewer

/-! ## The fallback -/

/-- Resolution takes no component away. -/
theorem usesFewer_of_resolve {numerals : NumeralTables} {structures : StructureDb (JsonValue J)}
    {wiring resolved : WorkflowWiring (WiringData J)}
    (h : resolveVirtualStructureWirings numerals structures wiring = .ok resolved) :
    UsesFewer wiring resolved := by
  have hsub {wirings result : List (Wiring (WiringData J))}
      (hstay : (wirings.filter fun wiring => !isVirtual wiring).Sublist result) :
      componentWirings wirings ⊆ componentWirings result := by
    intro wiring hwiring
    obtain ⟨hmem, hadapter⟩ := List.mem_filter.mp hwiring
    have hnotVirtual : (!isVirtual wiring) = true := by
      rw [isVirtual, of_decide_eq_true hadapter]
      decide
    exact List.mem_filter.mpr
      ⟨hstay.subset (List.mem_filter.mpr ⟨hmem, hnotVirtual⟩), hadapter⟩
  obtain ⟨_, -, _, -, hinputs, houtputs, -⟩ := resolveVirtualStructureWirings_eq_ok.mp h
  exact ⟨hsub (sublist_replaceVirtual hinputs), hsub (sublist_replaceVirtual houtputs)⟩

section Main

variable [UnicodeData] [DecidableEq V] [DecidableEq J] {config : WiringConfig}
  {tools : PreparationTools V J} {structures : StructureDb (JsonValue J)}
  {db : Database V (WiringData J)} {uuid4 : UUID → ℕ → UUID} {request : ExecByIdInput J C}

/-- A revision is read under its id. -/
theorem id_of_readRevision {id : UUID} {revision : Revision V (WiringData J)}
    (h : readRevision config db uuid4 id = .ok revision) : revision.id = id := by
  obtain ⟨selected, hselected, h⟩ := bind_eq_ok.mp h
  obtain ⟨testWiring, -, h⟩ := bind_eq_ok.mp h
  obtain ⟨releaseWiring, -, h⟩ := bind_eq_ok.mp h
  obtain rfl := return_eq_ok.mp h
  exact (Database.shape_of_select hselected).1

omit [DecidableEq J] in
/-- Of two preparations which hand on the same wiring, both got the same wiring. -/
theorem eq_of_preparesWiring {wiring wiring' completed : WorkflowWiring (WiringData J)}
    (hnames : wiredNames wiring.outputWirings = wiredNames wiring'.outputWirings)
    {reader : TrafoReader V (WiringData J)}
    (h : PreparesWiring tools db reader { request with wiring := some wiring } completed)
    (h' : PreparesWiring tools db reader { request with wiring := some wiring' } completed) :
    wiring = wiring' := by
  obtain ⟨_, _, hprepare, rfl⟩ := h
  obtain ⟨_, _, hprepare', hsame⟩ := h'
  obtain ⟨loaded, hloaded, workflow, hworkflow, _, -, _, -, hbuild⟩ :=
    prepareExecutionInput_eq_ok.mp hprepare
  obtain ⟨loaded', hloaded', workflow', hworkflow', _, -, _, -, hbuild'⟩ :=
    prepareExecutionInput_eq_ok.mp hprepare'
  obtain rfl := Except.ok.inj (hloaded.symm.trans hloaded')
  obtain ⟨_, -, completed, hcompleted, rfl⟩ := buildExecutionInput_eq_ok.mp hbuild
  obtain ⟨_, -, completed', hcompleted', rfl⟩ := buildExecutionInput_eq_ok.mp hbuild'
  obtain rfl : completed' = completed := hsame
  exact eq_of_completed_eq hnames (LoadedWorkflow.outputs_of_toWorkflowNode hworkflow hworkflow')
    hcompleted hcompleted'

/-- The request without wiring hands on what is prepared for the test wiring. -/
theorem hands_none_iff {revision : Revision V (WiringData J)}
    (hread : readRevision config db uuid4 request.id = .ok revision)
    {wiring : WorkflowWiring (WiringData J)} :
    HandsToRuntime tools structures db (databaseReader config db uuid4)
        { request with wiring := none } wiring ↔
      PreparesWiring tools db (databaseReader config db uuid4)
        { request with wiring := some revision.testWiring } wiring := by
  rw [handsToRuntime_of_none rfl]
  exact preparesWiring_none_iff (fun _ _ h => id_of_readRevision h) hread

/-- If the same wiring is handed over once, resolution leaves the test wiring alone. -/
theorem resolve_of_hands {revision : Revision V (WiringData J)}
    (hread : readRevision config db uuid4 request.id = .ok revision)
    {wiring : WorkflowWiring (WiringData J)}
    (h : HandsToRuntime tools structures db (databaseReader config db uuid4)
      { request with wiring := none } wiring)
    (h' : HandsToRuntime tools structures db (databaseReader config db uuid4)
      { request with wiring := some revision.testWiring } wiring) :
    resolveVirtualStructureWirings tools.code.numerals structures revision.testWiring =
      .ok revision.testWiring := by
  rw [hands_none_iff hread] at h
  obtain ⟨resolved, hresolved, hwiring⟩ := (handsToRuntime_of_some rfl).mp h'
  obtain ⟨-, hnames⟩ := names_of_resolve hresolved
  rwa [← eq_of_preparesWiring hnames.symm h hwiring] at hresolved

/-- The request without wiring and the one with the stored test wiring hand the same wiring to the
runtime exactly if the test wiring describes itself or nothing can be handed over for it. -/
theorem fallback_agrees_iff {revision : Revision V (WiringData J)}
    (hread : readRevision config db uuid4 request.id = .ok revision) :
    (∀ wiring,
      HandsToRuntime tools structures db (databaseReader config db uuid4)
          { request with wiring := none } wiring ↔
        HandsToRuntime tools structures db (databaseReader config db uuid4)
          { request with wiring := some revision.testWiring } wiring) ↔
      ((∃ wiring, HandsToRuntime tools structures db (databaseReader config db uuid4)
          { request with wiring := none } wiring) →
        DescribesItself tools.code.numerals structures revision.testWiring) := by
  rw [← resolve_eq_self_iff]
  constructor
  · rintro h ⟨wiring, hwiring⟩
    exact resolve_of_hands hread hwiring ((h wiring).mp hwiring)
  · intro h wiring
    constructor
    · intro hwiring
      refine (handsToRuntime_of_some rfl).mpr ⟨_, h ⟨wiring, hwiring⟩, ?_⟩
      exact (hands_none_iff hread).mp hwiring
    · intro hwiring
      obtain ⟨resolved, hresolved, hprepares⟩ := (handsToRuntime_of_some rfl).mp hwiring
      obtain ⟨hinputs, houtputs⟩ := names_of_resolve hresolved
      obtain ⟨completed, hcompleted⟩ := (usesFewer_of_resolve hresolved).exists_prepared
        (fun _ _ h => id_of_readRevision h) hinputs.symm houtputs.symm hprepares
      have hself := h ⟨completed, (hands_none_iff hread).mpr hcompleted⟩
      obtain rfl := Except.ok.inj (hself.symm.trans hresolved)
      exact (hands_none_iff hread).mpr hprepares

end Main

/-! ## A component with a virtual source -/

/-- Tools with a registered adapter for direct provisioning only. -/
def plainWiringConfig : WiringConfig where
  registeredAdapters := fun _ => [1]
  direct_provisioning_registered := fun _ => List.mem_singleton_self 1
  uriWiringShortcuts := fun _ => none

/-- Tools for preparations in which no code is looked at. -/
def plainPreparationTools : PreparationTools ℤ ℤ where
  text := { uuidStr := uuidStr, ofStr := fun _ => 0 }
  code := { plainTools with updateModuleLevelVariable := fun code _ _ => some code }
  componentAdapter := ⟨false, none, none⟩
  uuid4
    | .wrapper (.operatorInput i) => 2000 + i
    | .wrapper (.workflowInput i) => 3000 + i
    | .wrapper .operator => 4000
    | .wrapper .wrapper => 4001
    | .wrapper .revisionGroup => 4002
    | _ => 4003

/-- A wiring of the input `x`. -/
def wiringOfX (adapterId : AdapterId) (refId : PyStr) : Wiring (WiringData ℤ) where
  adapterId := adapterId
  data := { (directOutputWiring ['x'] : Wiring (WiringData ℤ)).data with refId := some refId }

/-- A component with one input, whose test wiring is a virtual one. -/
def componentOfX : Revision ℤ (WiringData ℤ) :=
  { plainComponent 1 .released "pass\n".toList with
    ioInterface := ⟨[⟨⟨2, some ['x'], .float⟩, ⟨.required, none, InputType.required_without_value⟩⟩], []⟩
    testWiring := ⟨[wiringOfX virtualStructureAdapter (uuidStr 7)], [], []⟩
    releaseWiring := none }

/-- A store with this component. -/
def componentOfXDb : Database ℤ (WiringData ℤ) where
  revisions := [componentOfX]
  nestings := []
  ids_unique := List.nodup_singleton _
  nesting_keys_unique := Nesting.nil_keys_nodup
  references_exist := fun _ h => absurd h List.not_mem_nil

/-- The source which the test wiring refers to. -/
def sourceOfX (adapterKey referencedId : PyStr) : StructureServiceSource (JsonValue ℤ) where
  externalId := ['x']
  stakeholderKey := ['x']
  name := ['x']
  external_id_not_empty := List.cons_ne_nil _ _
  stakeholder_key_not_empty := List.cons_ne_nil _ _
  name_not_empty := List.cons_ne_nil _ _
  id := 7
  type := .timeseries .float
  visible := true
  displayPath := []
  presetFilters := []
  passthroughFilters := none
  adapterKey := adapterKey
  referencedId := referencedId
  refKey := none
  refId := []
  metaData := none
  thingNodeExternalIds := none

/-- A structure with this source. -/
def structureOfX (adapterKey referencedId : PyStr) : StructureDb (JsonValue ℤ) where
  elementTypes := []
  thingNodes := []
  sources := [sourceOfX adapterKey referencedId]
  sinks := []
  sourceAssociation := ∅
  sinkAssociation := ∅
  constraints := by
    refine ⟨?_, ?_, ?_, ?_⟩ <;> refine ⟨?_, ?_, ?_⟩ <;> simp

/-- A request to execute the component. -/
def requestOfX : ExecByIdInput ℤ Unit := ⟨1, none, false, 9, ()⟩

/-- What is handed to the runtime, with word characters in ASCII only. -/
abbrev PlainHands (structures : StructureDb (JsonValue ℤ)) (request : ExecByIdInput ℤ Unit) :
    WorkflowWiring (WiringData ℤ) → Prop :=
  @HandsToRuntime asciiOnly ℤ ℤ Unit _ plainPreparationTools structures componentOfXDb
    (@databaseReader asciiOnly ℤ ℤ _ _ plainWiringConfig componentOfXDb fun _ => uuid4Above 1000)
    request

/-- The component is read as it is stored. -/
theorem read_componentOfX : @readRevision asciiOnly ℤ ℤ _ _ plainWiringConfig componentOfXDb
    (fun _ => uuid4Above 1000) requestOfX.id = .ok componentOfX := by
  decide +kernel

/-- The test wiring can be handed to the runtime as it is. -/
theorem prepares_componentOfX :
    @PreparesWiring asciiOnly ℤ ℤ Unit _ plainPreparationTools componentOfXDb
      (@databaseReader asciiOnly ℤ ℤ _ _ plainWiringConfig componentOfXDb
        fun _ => uuid4Above 1000)
      { requestOfX with wiring := some componentOfX.testWiring } componentOfX.testWiring := by
  have hwiring : (@prepareExecutionInput asciiOnly ℤ ℤ Unit _ plainPreparationTools componentOfXDb
      (@databaseReader asciiOnly ℤ ℤ _ _ plainWiringConfig componentOfXDb fun _ => uuid4Above 1000)
      ⟨3, 3⟩ { requestOfX with wiring := some componentOfX.testWiring }).map
        (Except.map fun input => input.workflowWiring) = some (.ok componentOfX.testWiring) := by
    decide +kernel
  obtain ⟨result, hresult, hmap⟩ := Option.map_eq_some_iff.mp hwiring
  obtain ⟨input, rfl, hinput⟩ := map_eq_ok.mp hmap
  exact ⟨_, input, hresult, hinput⟩

/-- For a source of another adapter the request without wiring gets the virtual wiring and the
one with the test wiring the resolved one. -/
theorem virtualTestWiring_not_resolved :
    ¬ ∀ wiring, PlainHands (structureOfX "sql-adapter".toList "table".toList)
        { requestOfX with wiring := none } wiring ↔
      PlainHands (structureOfX "sql-adapter".toList "table".toList)
        { requestOfX with wiring := some componentOfX.testWiring } wiring := by
  intro h
  have hfirst : PlainHands (structureOfX "sql-adapter".toList "table".toList)
      { requestOfX with wiring := none } componentOfX.testWiring :=
    (@hands_none_iff ℤ ℤ Unit asciiOnly _ _ _ _ _ _ _ _ _ read_componentOfX _).mpr
      prepares_componentOfX
  have hsame := @resolve_of_hands ℤ ℤ Unit asciiOnly _ _ _ _ _ _ _ _ _ read_componentOfX _ hfirst
    ((h _).mp hfirst)
  exact absurd hsame (by decide +kernel)

/-- The characterisation on a source which describes the test wiring. -/
theorem virtualTestWiring_describing :
    @readRevision asciiOnly ℤ ℤ _ _ plainWiringConfig componentOfXDb
        (fun _ => uuid4Above 1000) requestOfX.id = .ok componentOfX ∧
      ∀ wiring, PlainHands (structureOfX "virtual-structure-adapter".toList (uuidStr 7))
          { requestOfX with wiring := none } wiring ↔
        PlainHands (structureOfX "virtual-structure-adapter".toList (uuidStr 7))
          { requestOfX with wiring := some componentOfX.testWiring } wiring :=
  ⟨read_componentOfX,
    (@fallback_agrees_iff ℤ ℤ Unit asciiOnly _ _ _ _ _ _ _ requestOfX _ read_componentOfX).mpr
      fun _ => resolve_eq_self_iff.mp (by decide +kernel)⟩

end HetidaDesigner
