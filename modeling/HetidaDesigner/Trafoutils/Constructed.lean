import HetidaDesigner.Trafoutils.Declarations

/-!
# Constructed workflows

The data of a construction is connected, except that an operator output may have been made an
output of the workflow twice. Without such outputs the data is intact, and its validation keeps all
which has been declared.
-/

namespace HetidaDesigner

open Checks KeyedList LastEntry

variable {V : Type}

/-! ## What has been declared is there -/

/-- A content has all which has been declared, with its names and operator connectors. -/
structure KeepsDeclared (state : Construction V) (content : WorkflowContent V) : Prop where
  links : ∀ link ∈ state.links, ∃ kept ∈ content.links, kept.atOrigin = link.atOrigin
  constants : ∀ constant ∈ state.constants, constant ∈ content.constants
  inputs : ∀ wfInput ∈ state.contentInputs, ∃ kept ∈ content.inputs, kept.id = wfInput.id ∧
    kept.name = wfInput.name ∧ kept.dataType = wfInput.dataType ∧ kept.key = wfInput.key
  outputs : ∀ wfOutput ∈ state.contentOutputs, wfOutput ∈ content.outputs

/-! ## Operators in order -/

/-- Ordering keeps the inputs. -/
theorem orderOperatorInputs_perm (inputs : List (OperatorInput V)) :
    (orderOperatorInputs inputs).Perm inputs := by
  have hoptional : (inputs.filter fun input => input.type = .optional) =
      inputs.filter fun input => !decide (input.type = .required) := by
    refine List.filter_congr fun input _ => ?_
    cases input.type <;> rfl
  rw [orderOperatorInputs, hoptional]
  exact List.filter_append_perm _ _

/-- The inputs of operators under their keys. -/
theorem mem_inputConnectors_iff {operators : List (Operator V)} {key : UUID × UUID}
    {input : OperatorInput V} : (key, input) ∈ inputConnectors operators ↔
      ∃ operator ∈ operators, input ∈ operator.inputs ∧ (operator.id, input.id) = key := by
  rw [inputConnectors_eq, List.flatMap_map, List.mem_flatMap]
  refine exists_congr fun operator => and_congr_right fun _ => ?_
  rw [List.mem_map]
  constructor
  · rintro ⟨other, hother, heq⟩
    obtain ⟨hkey, rfl⟩ := Prod.mk.inj heq
    exact ⟨hother, hkey⟩
  · rintro ⟨hinput, rfl⟩
    exact ⟨input, hinput, rfl⟩

/-- The outputs of operators under their keys. -/
theorem mem_outputConnectors_iff {operators : List (Operator V)} {key : UUID × UUID}
    {output : OperatorOutput} : (key, output) ∈ outputConnectors operators ↔
      ∃ operator ∈ operators, output ∈ operator.outputs ∧ (operator.id, output.id) = key := by
  rw [outputConnectors_eq, List.flatMap_map, List.mem_flatMap]
  refine exists_congr fun operator => and_congr_right fun _ => ?_
  rw [List.mem_map]
  constructor
  · rintro ⟨other, hother, heq⟩
    obtain ⟨hkey, rfl⟩ := Prod.mk.inj heq
    exact ⟨hother, hkey⟩
  · rintro ⟨houtput, rfl⟩
    exact ⟨output, houtput, rfl⟩

/-- Keys made of two distinct ids each are distinct. -/
theorem nodup_flatMap_keys {A B : Type} {id : A → UUID} {parts : A → List B} {partId : B → UUID}
    {elements : List A} (hids : (elements.map id).Nodup)
    (hparts : ∀ a ∈ elements, ((parts a).map partId).Nodup) :
    (elements.flatMap fun a => (parts a).map fun b => (id a, partId b)).Nodup := by
  rw [List.nodup_flatMap]
  constructor
  · intro a ha
    exact nodup_map_of_comp (Prod.mk_right_injective _) (hparts a ha)
  · refine (List.pairwise_map.mp hids).imp fun {a a'} hne key hkey hkey' => ?_
    obtain ⟨b, -, rfl⟩ := List.mem_map.mp hkey
    obtain ⟨b', -, heq⟩ := List.mem_map.mp hkey'
    exact hne (congrArg Prod.fst heq).symm

/-- Placing an input only moves it. -/
theorem placedInput_same (operators : List (Operator V)) (wfInput : WorkflowContentDynamicInput V) :
    (Construction.placedInput operators wfInput).toIo = wfInput.toIo ∧
      (Construction.placedInput operators wfInput).key = wfInput.key := by
  unfold Construction.placedInput
  split
  · exact ⟨rfl, rfl⟩
  · exact ⟨rfl, rfl⟩

/-- Where the link of an input ends, the input leads to. -/
theorem LeadsIn.finish_key_iff {operators : List (Operator V)} {io : WorkflowContentIo} {made : Link}
    (h : LeadsIn operators io made) {operatorId inputId : UUID} :
    made.finish.key = (some operatorId, inputId) ↔ io.key = (operatorId, inputId) := by
  rw [h.key, WorkflowContentIo.key, Prod.mk.injEq, Prod.mk.injEq, Option.some.injEq]

/-- Where the link of an output starts, the output comes from. -/
theorem LeadsOut.start_key_iff {operators : List (Operator V)} {io : WorkflowContentOutput}
    {made : Link} (h : LeadsOut operators io made) {operatorId outputId : UUID} :
    made.start.key = (some operatorId, outputId) ↔ io.key = (operatorId, outputId) := by
  rw [h.key, WorkflowContentIo.key, Prod.mk.injEq, Prod.mk.injEq, Option.some.injEq]

/-- The id of an input at a vertex. -/
theorem key_of_atInput {operators : List (Operator V)} {vertex : Vertex} {input : OperatorInput V}
    (hat : AtInput operators vertex input) {first : Option UUID} {id : UUID}
    (hkey : vertex.key = (first, id)) : input.id = id := by
  obtain ⟨operator, -, -, rfl⟩ := hat
  exact congrArg Prod.snd hkey

/-- The id of an output at a vertex. -/
theorem key_of_atOutput {operators : List (Operator V)} {vertex : Vertex} {output : OperatorOutput}
    (hat : AtOutput operators vertex output) {first : Option UUID} {id : UUID}
    (hkey : vertex.key = (first, id)) : output.id = id := by
  obtain ⟨operator, -, -, rfl⟩ := hat
  exact congrArg Prod.snd hkey

section Explained

variable [UnicodeData] {uuid4 : ConstructionDraw → UUID} {state : Construction V}
  {declared : List (Declaration V)}

/-- Operators in order have the ids they had. -/
theorem Construction.Explained.orderedIds (h : state.Explained uuid4 declared) :
    (state.contentData.operators.map fun operator => operator.id).Nodup := by
  rw [Construction.contentData]
  dsimp only
  rw [List.map_map]
  exact h.operatorIds

/-- An operator input is exposed and at the origin, and found in the ordered operators. -/
theorem Construction.Explained.atInput (h : state.Explained uuid4 declared) {vertex : Vertex}
    {input : OperatorInput V} (hat : AtInput state.operators vertex input) (key : UUID × UUID)
    (hkey : vertex.key = (some key.1, key.2)) :
    (key, input) ∈ inputConnectors state.contentData.operators ∧ input.exposed = true ∧
      vertex.connector.matchesConnector input.toConnector = true := by
  obtain ⟨operator, hoperator, hinput, rfl⟩ := hat
  have hfresh := h.operatorsFresh operator hoperator
  refine ⟨mem_inputConnectors_iff.mpr ⟨operator.fixInputOrdering,
    List.mem_map_of_mem hoperator, (orderOperatorInputs_perm _).mem_iff.mpr hinput,
    (eq_of_operatorVertex_key hkey).symm⟩, hfresh.exposed input hinput, ?_⟩
  rw [Connector.matchesConnector, hfresh.inputPositions input hinput]
  exact decide_eq_true ⟨rfl, rfl, rfl, rfl, rfl⟩

/-- An operator output is at the origin, and found in the ordered operators. -/
theorem Construction.Explained.atOutput (h : state.Explained uuid4 declared) {vertex : Vertex}
    {output : OperatorOutput} (hat : AtOutput state.operators vertex output) (key : UUID × UUID)
    (hkey : vertex.key = (some key.1, key.2)) :
    (key, output) ∈ outputConnectors state.contentData.operators ∧
      vertex.connector.matchesConnector output = true := by
  obtain ⟨operator, hoperator, houtput, rfl⟩ := hat
  refine ⟨mem_outputConnectors_iff.mpr ⟨operator.fixInputOrdering,
    List.mem_map_of_mem hoperator, houtput, (eq_of_operatorVertex_key hkey).symm⟩, ?_⟩
  rw [Connector.matchesConnector, (h.operatorsFresh operator hoperator).outputPositions output houtput]
  exact decide_eq_true ⟨rfl, rfl, rfl, rfl, rfl⟩

end Explained

/-! ## Links -/

/-- The links of declarations, those of ios last. -/
theorem perm_made (declared : List (Declaration V)) :
    (declared.filterMap Declaration.link? ++ declared.filterMap Declaration.ioLink?).Perm
      (declared.map Declaration.made) := by
  induction declared with
  | nil => exact .refl _
  | cons declaration rest ih =>
    cases declaration with
    | link made => exact ih.cons made
    | output wfOutput made => exact List.perm_middle.trans (ih.cons made)
    | input wfInput made => exact List.perm_middle.trans (ih.cons made)
    | constant wfConstant made => exact List.perm_middle.trans (ih.cons made)

/-- What is read off from an element is read off from no other. -/
theorem eq_of_nodup_filterMap {A B : Type} {f : A → Option B} {l : List A}
    (h : (l.filterMap f).Nodup) {a a' : A} (ha : a ∈ l) (ha' : a' ∈ l) {b : B} (hb : f a = some b)
    (hb' : f a' = some b) : a = a' := by
  induction l with
  | nil => exact absurd ha List.not_mem_nil
  | cons first rest ih =>
    rcases List.mem_cons.mp ha with rfl | hrest
    · rw [List.filterMap_cons_some hb, List.nodup_cons] at h
      rcases List.mem_cons.mp ha' with rfl | hrest'
      · rfl
      · exact absurd (List.mem_filterMap.mpr ⟨a', hrest', hb'⟩) h.1
    · rcases List.mem_cons.mp ha' with rfl | hrest'
      · rw [List.filterMap_cons_some hb', List.nodup_cons] at h
        exact absurd (List.mem_filterMap.mpr ⟨a, hrest, hb⟩) h.1
      · refine ih (h.sublist ?_) hrest hrest'
        exact (List.sublist_cons_self first rest).filterMap f

section Connected

variable [UnicodeData] {uuid4 : ConstructionDraw → UUID} {state : Construction V}
  {declared : List (Declaration V)}

/-- The links of the data are those of the declarations. -/
theorem Construction.Explained.perm_links (h : state.Explained uuid4 declared) :
    state.contentData.links.Perm (declared.map Declaration.made) := by
  rw [Construction.contentData, h.lists.links, h.lists.ioLinks]
  exact perm_made declared

/-- Each link of the data belongs to a declaration. -/
theorem Construction.Explained.mem_links_iff (h : state.Explained uuid4 declared) {link : Link} :
    link ∈ state.contentData.links ↔ ∃ declaration ∈ declared, declaration.made = link := by
  rw [h.perm_links.mem_iff, List.mem_map]

/-- The outputs of a state are declared. -/
theorem Construction.Explained.mem_outputs_iff (h : state.Explained uuid4 declared)
    {wfOutput : WorkflowContentOutput} :
    wfOutput ∈ state.contentOutputs ↔ ∃ made, .output wfOutput made ∈ declared := by
  rw [h.lists.contentOutputs, List.mem_filterMap]
  constructor
  · rintro ⟨declaration, hdeclaration, heq⟩
    cases declaration with
    | output wfOutput' made =>
      obtain rfl := Option.some.inj heq
      exact ⟨made, hdeclaration⟩
    | link made => cases heq
    | input wfInput made => cases heq
    | constant wfConstant made => cases heq
  · rintro ⟨made, hdeclaration⟩
    exact ⟨_, hdeclaration, rfl⟩

/-- The inputs of a state are declared. -/
theorem Construction.Explained.mem_inputs_iff (h : state.Explained uuid4 declared)
    {wfInput : WorkflowContentDynamicInput V} :
    wfInput ∈ state.contentInputs ↔ ∃ made, .input wfInput made ∈ declared := by
  rw [h.lists.contentInputs, List.mem_filterMap]
  constructor
  · rintro ⟨declaration, hdeclaration, heq⟩
    cases declaration with
    | input wfInput' made =>
      obtain rfl := Option.some.inj heq
      exact ⟨made, hdeclaration⟩
    | link made => cases heq
    | output wfOutput made => cases heq
    | constant wfConstant made => cases heq
  · rintro ⟨made, hdeclaration⟩
    exact ⟨_, hdeclaration, rfl⟩

/-- Declarations whose links start outside have the id of their io there. -/
theorem Construction.Explained.start_of_outer (h : state.Explained uuid4 declared)
    {declaration : Declaration V} (hdeclaration : declaration ∈ declared)
    (houter : declaration.made.start.operator = none) :
    declaration.ioId? = some declaration.made.start.connector.id := by
  have hfits := h.fits declaration hdeclaration
  cases declaration with
  | link made =>
    obtain ⟨⟨output, operator, -, -, hstart⟩, -⟩ := hfits
    rw [Declaration.made, hstart] at houter
    cases houter
  | output wfOutput made =>
    obtain ⟨output, ⟨operator, -, -, hstart⟩, -⟩ := hfits.source
    rw [Declaration.made, hstart] at houter
    cases houter
  | input wfInput made => exact congrArg some hfits.1.start_id.symm
  | constant wfConstant made => exact congrArg some hfits.start_id.symm

/-- A link which starts at an operator starts at an output of it. -/
theorem Construction.Explained.exists_atOutput (h : state.Explained uuid4 declared) {link : Link}
    (hlink : link ∈ state.contentData.links) {operatorId : UUID}
    (hstart : link.start.operator = some operatorId) :
    ∃ output, AtOutput state.operators link.start output := by
  obtain ⟨declaration, hdeclaration, rfl⟩ := h.mem_links_iff.mp hlink
  have hfits := h.fits declaration hdeclaration
  cases declaration with
  | link made => exact hfits.1
  | output wfOutput made => exact hfits.source.imp fun _ h => h.1
  | input wfInput made => cases hfits.1.start_operator.symm.trans hstart
  | constant wfConstant made => cases hfits.start_operator.symm.trans hstart

/-- A link which ends at an operator ends at an input of it. -/
theorem Construction.Explained.exists_atInput (h : state.Explained uuid4 declared) {link : Link}
    (hlink : link ∈ state.contentData.links) {operatorId : UUID}
    (hfinish : link.finish.operator = some operatorId) :
    ∃ input, AtInput state.operators link.finish input := by
  obtain ⟨declaration, hdeclaration, rfl⟩ := h.mem_links_iff.mp hlink
  have hfits := h.fits declaration hdeclaration
  cases declaration with
  | link made => exact hfits.2
  | output wfOutput made =>
    rw [Declaration.made, hfits.finish] at hfinish
    cases hfinish
  | input wfInput made => exact hfits.1.target.imp fun _ h => h.1
  | constant wfConstant made => exact hfits.target.imp fun _ h => h.1

/-- Declarations whose links end outside have the id of their io there. -/
theorem Construction.Explained.finish_of_outer (h : state.Explained uuid4 declared)
    {declaration : Declaration V} (hdeclaration : declaration ∈ declared)
    (houter : declaration.made.finish.operator = none) :
    declaration.ioId? = some declaration.made.finish.connector.id := by
  have hfits := h.fits declaration hdeclaration
  cases declaration with
  | link made =>
    obtain ⟨-, input, operator, -, -, hfinish⟩ := hfits
    rw [Declaration.made, hfinish] at houter
    cases houter
  | output wfOutput made =>
    rw [Declaration.made, hfits.finish]
    rfl
  | input wfInput made => cases houter.symm.trans (congrArg Prod.fst hfits.1.key)
  | constant wfConstant made => cases houter.symm.trans (congrArg Prod.fst hfits.key)

/-- Links which start outside start at different ios. -/
theorem Construction.Explained.nodup_outerStarts (h : state.Explained uuid4 declared) :
    ((state.contentData.links.filter fun link => link.start.operator = none).map
      fun link => link.start.key).Nodup := by
  have hperm := (h.perm_links.filter fun link => decide (link.start.operator = none)).map
    fun link => link.start.key
  rw [hperm.nodup_iff, List.filter_map]
  refine List.Nodup.of_map Prod.snd ?_
  rw [List.map_map, List.map_map]
  set outer := declared.filter ((fun link : Link => decide (link.start.operator = none)) ∘
    Declaration.made) with houter
  have hids : outer.map (fun declaration => declaration.made.start.connector.id) =
      outer.filterMap Declaration.ioId? := by
    rw [← List.filterMap_eq_map]
    refine List.filterMap_congr fun declaration hdeclaration => ?_
    obtain ⟨hmem, htest⟩ := List.mem_filter.mp hdeclaration
    exact (h.start_of_outer hmem (of_decide_eq_true htest)).symm
  exact hids ▸ h.apart.ioIds.sublist (List.filter_sublist.filterMap _)

/-- The places where links end are distinct. -/
theorem Construction.Explained.nodup_finishes (h : state.Explained uuid4 declared) :
    (state.contentData.links.map fun link => link.finish.key).Nodup := by
  rw [(h.perm_links.map _).nodup_iff, List.map_map]
  exact h.apart.finishes

/-- The data is connected, with those of its outputs whose operator outputs have no links to
elsewhere. -/
theorem Construction.Explained.connected (h : state.Explained uuid4 declared)
    {outputs : List WorkflowContentOutput} (hsub : outputs ⊆ state.contentOutputs)
    (halone : ∀ wfOutput ∈ outputs, ∀ link ∈ state.contentData.links,
      link.start.key = (some wfOutput.operatorId, wfOutput.connectorId) →
        link.finish.connector.id = wfOutput.id) :
    ({ state.contentData with outputs := outputs } : WorkflowContent V).Connected where
  inputKeys := by
    rw [inputConnectors_eq, List.flatMap_map, List.map_flatMap]
    simp only [List.map_map]
    refine nodup_flatMap_keys h.orderedIds fun ordered hordered => ?_
    obtain ⟨operator, hoperator, rfl⟩ := List.mem_map.mp hordered
    exact ((orderOperatorInputs_perm _).map _).nodup_iff.mpr
      (h.operatorsFresh operator hoperator).inputIds
  outputKeys := by
    rw [outputConnectors_eq, List.flatMap_map, List.map_flatMap]
    simp only [List.map_map]
    refine nodup_flatMap_keys h.orderedIds fun ordered hordered => ?_
    obtain ⟨operator, hoperator, rfl⟩ := List.mem_map.mp hordered
    exact (h.operatorsFresh operator hoperator).outputIds
  linkEnds := h.nodup_finishes
  outerStarts := h.nodup_outerStarts
  starts := by
    intro link hlink operatorId hstart
    obtain ⟨output, hat⟩ := h.exists_atOutput hlink hstart
    exact ⟨output, h.atOutput hat (operatorId, _) (Prod.ext hstart rfl)⟩
  ends := by
    intro link hlink operatorId hfinish
    obtain ⟨input, hat⟩ := h.exists_atInput hlink hfinish
    obtain ⟨hmem, hexposed, hmatches⟩ := h.atInput hat (operatorId, _) (Prod.ext hfinish rfl)
    exact ⟨input, hmem, hmatches, hexposed⟩
  inputsFit := by
    intro placed hplaced
    obtain ⟨wfInput, hwfInput, rfl⟩ := List.mem_map.mp hplaced
    obtain ⟨made, hdeclared⟩ := h.mem_inputs_iff.mp hwfInput
    obtain ⟨hleads, -⟩ := h.fits _ hdeclared
    obtain ⟨input, hat, htype⟩ := hleads.target
    obtain ⟨hmem, hexposed, -⟩ := h.atInput hat wfInput.key hleads.key
    obtain ⟨hio, hkey⟩ := placedInput_same state.contentData.operators wfInput
    refine ⟨input, hkey ▸ hmem, hexposed, decide_eq_true ⟨?_, Or.inr (Or.inr ?_)⟩⟩
    · exact (congrArg Prod.snd hkey).trans (key_of_atInput hat hleads.key).symm
    · exact (congrArg Io.dataType hio).trans htype.symm
  inputsLinked := by
    intro placed hplaced
    obtain ⟨wfInput, hwfInput, rfl⟩ := List.mem_map.mp hplaced
    obtain ⟨made, hdeclared⟩ := h.mem_inputs_iff.mp hwfInput
    obtain ⟨hleads, hstart⟩ := h.fits _ hdeclared
    obtain ⟨hio, hkey⟩ := placedInput_same state.contentData.operators wfInput
    refine ⟨made, h.mem_links_iff.mpr ⟨_, hdeclared, rfl⟩, ?_, decide_eq_true ⟨?_, ?_⟩⟩
    · rw [hstart]
      exact congrArg (fun io : Io => (none, io.id)) hio.symm
    · rw [hstart, Connector.matchesIo]
      exact decide_eq_true ⟨congrArg Io.id hio, congrArg Io.name hio, congrArg Io.dataType hio⟩
    · rw [hleads.key]
      exact congrArg (fun key : UUID × UUID => (some key.1, key.2)) hkey.symm
  outputsFit := by
    intro wfOutput hwfOutput
    obtain ⟨made, hdeclared⟩ := h.mem_outputs_iff.mp (hsub hwfOutput)
    have hleads := h.fits _ hdeclared
    obtain ⟨output, hat, htype⟩ := hleads.source
    obtain ⟨hmem, -⟩ := h.atOutput hat wfOutput.key hleads.key
    exact ⟨output, hmem, decide_eq_true ⟨(key_of_atOutput hat hleads.key).symm,
      Or.inr (Or.inr htype.symm)⟩⟩
  outputsLinked := by
    intro wfOutput hwfOutput
    obtain ⟨made, hdeclared⟩ := h.mem_outputs_iff.mp (hsub hwfOutput)
    have hleads := h.fits _ hdeclared
    refine ⟨made, h.mem_links_iff.mpr ⟨_, hdeclared, rfl⟩, ?_, decide_eq_true ⟨?_, hleads.key⟩⟩
    · rw [hleads.finish]
      rfl
    · rw [hleads.finish]
      exact decide_eq_true ⟨rfl, rfl, rfl⟩
  outputsAlone := halone

/-- If no operator output is an output of the workflow twice, its links lead to the one output. -/
theorem Construction.Explained.outputsAlone (h : state.Explained uuid4 declared)
    (hkeys : (state.contentOutputs.map fun wfOutput => wfOutput.key).Nodup)
    {wfOutput : WorkflowContentOutput} (hwfOutput : wfOutput ∈ state.contentOutputs) {link : Link}
    (hlink : link ∈ state.contentData.links)
    (hstart : link.start.key = (some wfOutput.operatorId, wfOutput.connectorId)) :
    link.finish.connector.id = wfOutput.id := by
  obtain ⟨made, hdeclared⟩ := h.mem_outputs_iff.mp hwfOutput
  obtain ⟨declaration, hdeclaration, rfl⟩ := h.mem_links_iff.mp hlink
  have hfits := h.fits declaration hdeclaration
  cases declaration with
  | link other =>
    exact absurd (h.flags.trafoOutputKeys wfOutput made hdeclared)
      (h.flags.disjoint _ (h.flags.linkStarts other hdeclaration wfOutput.key hstart))
  | output wfOutput' other =>
    have hkey : wfOutput'.key = wfOutput.key := hfits.start_key_iff.mp hstart
    have hmem := h.mem_outputs_iff.mpr ⟨other, hdeclaration⟩
    obtain rfl := KeyedList.eq_of_key_eq hkeys hmem hwfOutput hkey
    rw [Declaration.made, hfits.finish]
    rfl
  | input wfInput other =>
    cases hfits.1.start_operator.symm.trans (congrArg Prod.fst hstart)
  | constant wfConstant other =>
    cases hfits.start_operator.symm.trans (congrArg Prod.fst hstart)

/-- Ids of operators are no ids of ios. -/
theorem Construction.Explained.operatorId_ne (huuid : Function.Injective uuid4)
    (h : state.Explained uuid4 declared) {vertex : Vertex} {operatorId : UUID}
    (hvertex : vertex.operator = some operatorId)
    (hat : (∃ output, AtOutput state.operators vertex output) ∨
      ∃ input, AtInput state.operators vertex input)
    {declaration : Declaration V} (hdeclaration : declaration ∈ declared) {id : UUID}
    (hid : declaration.ioId? = some id) : operatorId ≠ id := by
  have hoperator : ∃ operator ∈ state.operators, operator.id = operatorId := by
    rcases hat with ⟨_, operator, hoperator, -, rfl⟩ | ⟨_, operator, hoperator, -, rfl⟩
    · exact ⟨operator, hoperator, Option.some.inj hvertex⟩
    · exact ⟨operator, hoperator, Option.some.inj hvertex⟩
  obtain ⟨operator, hoperator, rfl⟩ := hoperator
  obtain ⟨n, -, hdrawn⟩ := h.operatorsDrawn operator hoperator
  obtain ⟨m, -, hdrawn'⟩ := h.apart.drawn id (List.mem_filterMap.mpr ⟨_, hdeclaration, hid⟩)
  rintro rfl
  cases huuid (hdrawn.symm.trans hdrawn')

/-- Only the link of an io starts at it. -/
theorem Construction.Explained.start_unique (huuid : Function.Injective uuid4)
    (h : state.Explained uuid4 declared) {declaration other : Declaration V}
    (hdeclaration : declaration ∈ declared) (hother : other ∈ declared) {id : UUID}
    (hid : declaration.ioId? = some id) (hstart : other.made.edge.1 = id) :
    other = declaration ∧ other.made.start.operator = none := by
  have hmem := h.mem_links_iff.mpr ⟨other, hother, rfl⟩
  cases hoperator : other.made.start.operator with
  | some operatorId =>
    have hne := h.operatorId_ne huuid hoperator (Or.inl (h.exists_atOutput hmem hoperator))
      hdeclaration hid
    rw [Link.edge, hoperator] at hstart
    exact absurd hstart hne
  | none =>
    rw [Link.edge, hoperator] at hstart
    have hid' := h.start_of_outer hother hoperator
    rw [show other.made.start.connector.id = id from hstart] at hid'
    exact ⟨eq_of_nodup_filterMap h.apart.ioIds hother hdeclaration hid' hid, rfl⟩

/-- Only the link of an io ends at it. -/
theorem Construction.Explained.finish_unique (huuid : Function.Injective uuid4)
    (h : state.Explained uuid4 declared) {declaration other : Declaration V}
    (hdeclaration : declaration ∈ declared) (hother : other ∈ declared) {id : UUID}
    (hid : declaration.ioId? = some id) (hfinish : other.made.edge.2 = id) :
    other = declaration ∧ other.made.finish.operator = none := by
  have hmem := h.mem_links_iff.mpr ⟨other, hother, rfl⟩
  cases hoperator : other.made.finish.operator with
  | some operatorId =>
    have hne := h.operatorId_ne huuid hoperator (Or.inr (h.exists_atInput hmem hoperator))
      hdeclaration hid
    rw [Link.edge, hoperator] at hfinish
    exact absurd hfinish hne
  | none =>
    rw [Link.edge, hoperator] at hfinish
    have hid' := h.finish_of_outer hother hoperator
    rw [show other.made.finish.connector.id = id from hfinish] at hid'
    exact ⟨eq_of_nodup_filterMap h.apart.ioIds hother hdeclaration hid' hid, rfl⟩

/-- The links of ios close no cycle. -/
theorem Construction.Explained.acyclic (huuid : Function.Injective uuid4)
    (h : state.Explained uuid4 declared) (hlinks : linksAcyclicDirectedGraph state.links = true) :
    linksAcyclicDirectedGraph state.contentData.links = true := by
  rw [linksAcyclicDirectedGraph_iff] at hlinks ⊢
  have hedge {a b : UUID} (hab : (a, b) ∈ state.contentData.links.map Link.edge) :
      ∃ declaration ∈ declared, declaration.made.edge = (a, b) := by
    obtain ⟨link, hlink, hedge⟩ := List.mem_map.mp hab
    obtain ⟨declaration, hdeclaration, rfl⟩ := h.mem_links_iff.mp hlink
    exact ⟨declaration, hdeclaration, hedge⟩
  refine hlinks.of_inner fun a b hab ⟨u, hbefore⟩ ⟨w, hafter⟩ => ?_
  obtain ⟨declaration, hdeclaration, heq⟩ := hedge hab
  obtain ⟨before, hmemBefore, hbefore⟩ := hedge hbefore
  obtain ⟨after, hmemAfter, hafter⟩ := hedge hafter
  have hfits := h.fits declaration hdeclaration
  have hinput {io : WorkflowContentIo} (hleads : LeadsIn state.operators io declaration.made)
      (hid : declaration.ioId? = some io.id) : (a, b) ∈ state.links.map Link.edge := by
    have ha : a = io.id := by
      rw [Link.edge, hleads.start_operator] at heq
      exact (congrArg Prod.fst heq).symm.trans hleads.start_id
    obtain ⟨rfl, hnone⟩ := h.finish_unique huuid hdeclaration hmemBefore hid
      ((congrArg Prod.snd hbefore).trans ha)
    cases hnone.symm.trans (congrArg Prod.fst hleads.key)
  cases declaration with
  | link made =>
    rw [← heq, h.lists.links]
    exact List.mem_map_of_mem (List.mem_filterMap.mpr ⟨_, hdeclaration, rfl⟩)
  | output wfOutput made =>
    have hb : b = wfOutput.id := by
      rw [Declaration.made, Link.edge, hfits.finish] at heq
      exact (congrArg Prod.snd heq).symm
    obtain ⟨rfl, hnone⟩ := h.start_unique huuid hdeclaration hmemAfter rfl
      ((congrArg Prod.fst hafter).trans hb)
    cases hnone.symm.trans (congrArg Prod.fst hfits.key)
  | input wfInput made => exact hinput hfits.1 rfl
  | constant wfConstant made => exact hinput hfits rfl

/-- Names which are unique in the interface are unique in the content. -/
theorem Construction.Explained.namesUnique (h : state.Explained uuid4 declared)
    (hnames : IOInterface.ioNamesUnique ⟨state.trafoInputs, state.trafoOutputs⟩ = true) :
    namesEmptyOrUnique (fun wfInput => wfInput.toIo) state.contentData.inputs = true ∧
      namesEmptyOrUnique (fun wfOutput => wfOutput.toIo) state.contentOutputs = true := by
  obtain ⟨hinputs, houtputs⟩ := of_decide_eq_true hnames
  constructor
  · rw [← hinputs]
    apply namesEmptyOrUnique_congr
    have hmap := congrArg (List.map Io.name) h.lists.trafoInputs
    rw [List.map_map, List.map_map] at hmap
    rw [Construction.contentData, List.map_map]
    refine Eq.trans (List.map_congr_left fun wfInput _ => ?_) hmap.symm
    exact congrArg Io.name (placedInput_same _ wfInput).1
  · rw [← houtputs]
    apply namesEmptyOrUnique_congr
    rw [h.lists.trafoOutputs, List.map_map]
    rfl

/-- The data is intact if names are unique, links form no cycle, and no operator output is an output
of the workflow twice. -/
theorem Construction.Explained.intact (huuid : Function.Injective uuid4)
    (h : state.Explained uuid4 declared)
    (hnames : IOInterface.ioNamesUnique ⟨state.trafoInputs, state.trafoOutputs⟩ = true)
    (hlinks : linksAcyclicDirectedGraph state.links = true)
    (hkeys : (state.contentOutputs.map fun wfOutput => wfOutput.key).Nodup) :
    state.contentData.Intact := by
  have hconnected : state.contentData.Connected :=
    h.connected (List.Subset.refl _) fun wfOutput hwfOutput link => h.outputsAlone hkeys hwfOutput
  refine hconnected.intact ?_ (h.acyclic huuid hlinks) (h.namesUnique hnames).1
    (h.namesUnique hnames).2
  refine List.all_eq_true.mpr fun ordered hordered => ?_
  obtain ⟨operator, hoperator, rfl⟩ := List.mem_map.mp hordered
  exact (h.operatorsFresh operator hoperator).strings

/-- Links between operators are kept. -/
theorem Construction.Explained.links_kept (h : state.Explained uuid4 declared)
    {content : WorkflowContent V}
    (haccepted : WorkflowContent.Accepted (fun i => uuid4 (.content i)) state.contentData content)
    {link : Link} (hlink : link ∈ state.links) :
    ∃ kept ∈ content.links, kept.atOrigin = link.atOrigin := by
  have hconnected := h.connected (List.nil_subset _) (fun _ h => absurd h List.not_mem_nil)
  have hmatched : link ∈ state.contentData.matchedLinks :=
    List.mem_filter.mpr ⟨List.mem_append_left _ hlink,
      hconnected.linkMatchesOperators (List.mem_append_left _ hlink)⟩
  have hinner : link.start.operator.isSome ∧ link.finish.operator.isSome := by
    rw [h.lists.links, List.mem_filterMap] at hlink
    obtain ⟨declaration, hdeclaration, heq⟩ := hlink
    have hfits := h.fits declaration hdeclaration
    cases declaration with
    | link made =>
      obtain rfl := Option.some.inj heq
      obtain ⟨⟨_, _, -, -, hstart⟩, _, _, -, -, hfinish⟩ := hfits
      rw [hstart, hfinish]
      exact ⟨rfl, rfl⟩
    | output wfOutput made => cases heq
    | input wfInput made => cases heq
    | constant wfConstant made => cases heq
  refine haccepted.links.symm.exists_mem (List.mem_filter.mpr ⟨hmatched, ?_⟩)
  obtain ⟨start, hstart⟩ := Option.isSome_iff_exists.mp hinner.1
  obtain ⟨finish, hfinish⟩ := Option.isSome_iff_exists.mp hinner.2
  rw [outerLinkValid, outerLinkInvalidDueToWorkflowInput, outerLinkInvalidDueToWorkflowOutput,
    hstart, hfinish]
  rfl

/-- Intact data is kept. -/
theorem Construction.Explained.keepsDeclared (h : state.Explained uuid4 declared)
    {content : WorkflowContent V} (hintact : state.contentData.Intact)
    (haccepted : WorkflowContent.Accepted (fun i => uuid4 (.content i)) state.contentData content) :
    KeepsDeclared state content where
  links _ := h.links_kept haccepted
  constants constant hconstant := by
    rw [haccepted.constants]
    exact hconstant
  inputs wfInput hwfInput := by
    obtain ⟨hio, hkey⟩ := placedInput_same state.contentData.operators wfInput
    refine ⟨_, ?_, congrArg Io.id hio, congrArg Io.name hio, congrArg Io.dataType hio, hkey⟩
    rw [haccepted.inputs, hintact.keptInputs_eq]
    exact List.mem_append_left _ (List.mem_map_of_mem hwfInput)
  outputs wfOutput hwfOutput := by
    rw [haccepted.outputs, hintact.keptOutputs_eq]
    exact List.mem_append_left _ hwfOutput

end Connected

end HetidaDesigner
