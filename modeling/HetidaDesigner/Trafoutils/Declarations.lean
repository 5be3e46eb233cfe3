import HetidaDesigner.Trafoutils.Construction

/-!
# What calls have declared

The calls of a construction leave a list of declarations, each of which made one link. The lists of
the state are read off from it. Two declarations never occupy one operator input, and ids of ios are
new.
-/

namespace HetidaDesigner

open Checks KeyedList LastEntry

variable {V W : Type}

/-! ## Declarations -/

/-- What a call other than `op` has declared, with the link made for it. -/
inductive Declaration (V : Type)
  | link (made : Link)
  | output (wfOutput : WorkflowContentOutput) (made : Link)
  | input (wfInput : WorkflowContentDynamicInput V) (made : Link)
  | constant (wfConstant : WorkflowContentConstantInput) (made : Link)

namespace Declaration

/-- The link of a declaration. -/
def made : Declaration V → Link
  | .link made => made
  | .output _ made => made
  | .input _ made => made
  | .constant _ made => made

/-- A declared link. -/
def link? : Declaration V → Option Link
  | .link made => some made
  | _ => none

/-- The link of a declared io. -/
def ioLink? : Declaration V → Option Link
  | .link _ => none
  | .output _ made => some made
  | .input _ made => some made
  | .constant _ made => some made

/-- A declared output. -/
def output? : Declaration V → Option WorkflowContentOutput
  | .output wfOutput _ => some wfOutput
  | _ => none

/-- A declared input. -/
def input? : Declaration V → Option (WorkflowContentDynamicInput V)
  | .input wfInput _ => some wfInput
  | _ => none

/-- A declared constant. -/
def constant? : Declaration V → Option WorkflowContentConstantInput
  | .constant wfConstant _ => some wfConstant
  | _ => none

/-- The id of a declared io. -/
def ioId? : Declaration V → Option UUID
  | .link _ => none
  | .output wfOutput _ => some wfOutput.id
  | .input wfInput _ => some wfInput.id
  | .constant wfConstant _ => some wfConstant.id

end Declaration

/-- A vertex is at an output of one of the operators. -/
def AtOutput (operators : List (Operator V)) (vertex : Vertex) (output : OperatorOutput) : Prop :=
  ∃ operator ∈ operators, output ∈ operator.outputs ∧ vertex = operatorVertex operator.id output.toIo

/-- A vertex is at an input of one of the operators. -/
def AtInput (operators : List (Operator V)) (vertex : Vertex) (input : OperatorInput V) : Prop :=
  ∃ operator ∈ operators, input ∈ operator.inputs ∧ vertex = operatorVertex operator.id input.toIo

/-- An input of the workflow and its link lead to the same operator input. -/
structure LeadsIn (operators : List (Operator V)) (io : WorkflowContentIo) (made : Link) : Prop where
  start_operator : made.start.operator = none
  start_id : made.start.connector.id = io.id
  key : made.finish.key = (some io.operatorId, io.connectorId)
  target : ∃ input, AtInput operators made.finish input ∧ input.dataType = io.dataType

/-- An output of the workflow and its link come from the same operator output. -/
structure LeadsOut (operators : List (Operator V)) (io : WorkflowContentOutput) (made : Link) :
    Prop where
  finish : made.finish = outerVertex io.id io.name io.dataType
  key : made.start.key = (some io.operatorId, io.connectorId)
  source : ∃ output, AtOutput operators made.start output ∧ output.dataType = io.dataType

/-- A declaration fits the operators. -/
def Declaration.Fits (operators : List (Operator V)) : Declaration V → Prop
  | .link made =>
    (∃ output, AtOutput operators made.start output) ∧ ∃ input, AtInput operators made.finish input
  | .output wfOutput made => LeadsOut operators wfOutput made
  | .input wfInput made => LeadsIn operators wfInput.toWorkflowContentIo made ∧
      made.start = outerVertex wfInput.id wfInput.name wfInput.dataType
  | .constant wfConstant made => LeadsIn operators wfConstant.toWorkflowContentIo made

/-- An operator as `op` makes it: its ios are at the origin and have ids of their own, and its
inputs are exposed. -/
structure Operator.Fresh [UnicodeData] (operator : Operator V) : Prop where
  strings : operator.stringsValid = true
  inputIds : (operator.inputs.map fun input => input.id).Nodup
  outputIds : (operator.outputs.map fun output => output.id).Nodup
  exposed : ∀ input ∈ operator.inputs, input.exposed = true
  inputPositions : ∀ input ∈ operator.inputs, input.position = .origin
  outputPositions : ∀ output ∈ operator.outputs, output.position = .origin

/-- The lists of a state are those of some declarations. -/
structure Construction.Lists (state : Construction V) (declared : List (Declaration V)) : Prop where
  links : state.links = declared.filterMap Declaration.link?
  ioLinks : state.ioLinks = declared.filterMap Declaration.ioLink?
  contentOutputs : state.contentOutputs = declared.filterMap Declaration.output?
  contentInputs : state.contentInputs = declared.filterMap Declaration.input?
  constants : state.constants = declared.filterMap Declaration.constant?
  trafoOutputs : state.trafoOutputs =
    state.contentOutputs.map WorkflowContentIo.toTransformationOutput
  trafoInputs : state.trafoInputs.map TransformationInput.toIo =
    state.contentInputs.map fun wfInput => wfInput.toIo

/-- The flags of a state are set for the declarations. -/
structure Construction.Flags (state : Construction V) (declared : List (Declaration V)) : Prop where
  blocked : ∀ declaration ∈ declared, ∀ key : UUID × UUID,
    declaration.made.finish.key = (some key.1, key.2) → key ∈ state.blocked
  linkStarts : ∀ made, .link made ∈ declared → ∀ key : UUID × UUID,
    made.start.key = (some key.1, key.2) → key ∈ state.linkStarts
  trafoOutputKeys : ∀ wfOutput made, .output wfOutput made ∈ declared →
    wfOutput.key ∈ state.trafoOutputKeys
  disjoint : ∀ key ∈ state.linkStarts, key ∉ state.trafoOutputKeys

/-- Declarations are apart: their links end at different places, and their ios have ids which have
been drawn for them. -/
structure Apart (uuid4 : ConstructionDraw → UUID) (calls : ℕ) (declared : List (Declaration V)) :
    Prop where
  finishes : (declared.map fun declaration => declaration.made.finish.key).Nodup
  ioIds : (declared.filterMap Declaration.ioId?).Nodup
  drawn : ∀ id ∈ declared.filterMap Declaration.ioId?, ∃ n < calls, id = uuid4 (.io n)

/-- A state is explained by declarations. -/
structure Construction.Explained [UnicodeData] (uuid4 : ConstructionDraw → UUID)
    (state : Construction V) (declared : List (Declaration V)) : Prop where
  operatorIds : (state.operators.map fun operator => operator.id).Nodup
  operatorsDrawn : ∀ operator ∈ state.operators, ∃ n < state.calls,
    operator.id = uuid4 (.operator n .operator)
  operatorsFresh : ∀ operator ∈ state.operators, operator.Fresh
  lists : state.Lists declared
  fits : ∀ declaration ∈ declared, declaration.Fits state.operators
  flags : state.Flags declared
  apart : Apart uuid4 state.calls declared

/-! ## Vertices -/

/-- More operators have the outputs of fewer ones. -/
theorem AtOutput.mono {operators operators' : List (Operator V)} (hsub : operators ⊆ operators')
    {vertex : Vertex} {output : OperatorOutput} (h : AtOutput operators vertex output) :
    AtOutput operators' vertex output := by
  obtain ⟨operator, hoperator, h⟩ := h
  exact ⟨operator, hsub hoperator, h⟩

/-- More operators have the inputs of fewer ones. -/
theorem AtInput.mono {operators operators' : List (Operator V)} (hsub : operators ⊆ operators')
    {vertex : Vertex} {input : OperatorInput V} (h : AtInput operators vertex input) :
    AtInput operators' vertex input := by
  obtain ⟨operator, hoperator, h⟩ := h
  exact ⟨operator, hsub hoperator, h⟩

/-- A declaration which fits operators fits more of them. -/
theorem Declaration.Fits.mono {operators operators' : List (Operator V)}
    (hsub : operators ⊆ operators') {declaration : Declaration V}
    (h : declaration.Fits operators) : declaration.Fits operators' := by
  have hin {io : WorkflowContentIo} {made : Link} (h : LeadsIn operators io made) :
      LeadsIn operators' io made := by
    obtain ⟨input, hinput, htype⟩ := h.target
    exact ⟨h.start_operator, h.start_id, h.key, input, hinput.mono hsub, htype⟩
  cases declaration with
  | link made =>
    obtain ⟨⟨output, houtput⟩, input, hinput⟩ := h
    exact ⟨⟨output, houtput.mono hsub⟩, input, hinput.mono hsub⟩
  | output wfOutput made =>
    obtain ⟨output, houtput, htype⟩ := h.source
    exact ⟨h.finish, h.key, output, houtput.mono hsub, htype⟩
  | input wfInput made => exact ⟨hin h.1, h.2⟩
  | constant wfConstant made => exact hin h

/-- A found output belongs to an operator. -/
theorem Construction.atOutput_of_findOutput {state : Construction V} {ref : ConnectorRef}
    {operator : Operator V} {output : OperatorOutput}
    (h : state.findOutput ref = .ok (operator, output)) :
    AtOutput state.operators (operatorVertex operator.id output.toIo) output := by
  unfold Construction.findOutput at h
  split at h
  · cases h
  · rename_i found hfound
    split at h
    · cases h
    · rename_i output' houtput
      obtain ⟨rfl, rfl⟩ := Prod.mk.inj (Except.ok.inj h)
      exact ⟨found, List.mem_of_getElem? hfound, (mem_of_lastEntry houtput).1, rfl⟩

/-- A found input belongs to an operator. -/
theorem Construction.atInput_of_findInput {state : Construction V} {ref : ConnectorRef}
    {operator : Operator V} {input : OperatorInput V}
    (h : state.findInput ref = .ok (operator, input)) :
    AtInput state.operators (operatorVertex operator.id input.toIo) input := by
  unfold Construction.findInput at h
  split at h
  · cases h
  · rename_i found hfound
    split at h
    · cases h
    · rename_i input' hinput
      obtain ⟨rfl, rfl⟩ := Prod.mk.inj (Except.ok.inj h)
      exact ⟨found, List.mem_of_getElem? hfound, (mem_of_lastEntry hinput).1, rfl⟩

/-! ## New declarations -/

section Declare

variable {state state' : Construction V} {declared : List (Declaration V)}
  {declaration : Declaration V}

/-- The flags for one more declaration. -/
theorem Construction.Flags.declare (h : state.Flags declared)
    (hblocked : state.blocked ⊆ state'.blocked) (hstarts : state.linkStarts ⊆ state'.linkStarts)
    (houtputs : state.trafoOutputKeys ⊆ state'.trafoOutputKeys)
    (hblock : ∀ key : UUID × UUID, declaration.made.finish.key = (some key.1, key.2) →
      key ∈ state'.blocked)
    (hstart : ∀ made, declaration = .link made → ∀ key : UUID × UUID,
      made.start.key = (some key.1, key.2) → key ∈ state'.linkStarts)
    (houtput : ∀ wfOutput made, declaration = .output wfOutput made →
      wfOutput.key ∈ state'.trafoOutputKeys)
    (hdisjoint : ∀ key ∈ state'.linkStarts, key ∉ state'.trafoOutputKeys) :
    state'.Flags (declared ++ [declaration]) := by
  constructor
  · intro other hother key hkey
    rcases List.mem_append.mp hother with hother | hother
    · exact hblocked (h.blocked other hother key hkey)
    · rw [List.mem_singleton.mp hother] at hkey
      exact hblock key hkey
  · intro made hmade key hkey
    rcases List.mem_append.mp hmade with hmade | hmade
    · exact hstarts (h.linkStarts made hmade key hkey)
    · exact hstart made (List.mem_singleton.mp hmade).symm key hkey
  · intro wfOutput made hmade
    rcases List.mem_append.mp hmade with hmade | hmade
    · exact houtputs (h.trafoOutputKeys wfOutput made hmade)
    · exact houtput wfOutput made (List.mem_singleton.mp hmade).symm
  · exact hdisjoint

variable {uuid4 : ConstructionDraw → UUID}

/-- One more declaration whose link ends elsewhere and whose io has a new id. -/
theorem Apart.declare (huuid : Function.Injective uuid4) {calls : ℕ} (h : Apart uuid4 calls declared)
    (hfinish : ∀ other ∈ declared, other.made.finish.key ≠ declaration.made.finish.key)
    (hid : ∀ id ∈ declaration.ioId?, id = uuid4 (.io calls)) :
    Apart uuid4 (calls + 1) (declared ++ [declaration]) := by
  have hnew : ∀ id ∈ [declaration].filterMap Declaration.ioId?, id = uuid4 (.io calls) := by
    intro id hmem
    obtain ⟨other, hother, hid'⟩ := List.mem_filterMap.mp hmem
    rw [List.mem_singleton.mp hother] at hid'
    exact hid id hid'
  have hnodup : ([declaration].filterMap Declaration.ioId?).Nodup := by
    cases hdeclaration : declaration.ioId? with
    | none =>
      rw [List.filterMap_cons_none hdeclaration]
      exact List.nodup_nil
    | some id =>
      rw [List.filterMap_cons_some hdeclaration]
      exact List.nodup_singleton id
  constructor
  · rw [List.map_append, List.nodup_append]
    refine ⟨h.finishes, List.nodup_singleton _, ?_⟩
    intro key hkey key' hkey' heq
    obtain ⟨other, hother, rfl⟩ := List.mem_map.mp hkey
    rw [List.map_singleton, List.mem_singleton] at hkey'
    exact hfinish other hother (heq.trans hkey')
  · rw [List.filterMap_append, List.nodup_append]
    refine ⟨h.ioIds, hnodup, ?_⟩
    rintro id hid id' hid' rfl
    obtain ⟨n, hn, hdrawn⟩ := h.drawn id hid
    have hsame := ConstructionDraw.io.inj (huuid (hdrawn.symm.trans (hnew id hid')))
    omega
  · intro id hid
    rw [List.filterMap_append, List.mem_append] at hid
    rcases hid with hid | hid
    · obtain ⟨n, hn, hdrawn⟩ := h.drawn id hid
      exact ⟨n, Nat.lt_succ_of_lt hn, hdrawn⟩
    · exact ⟨calls, Nat.lt_succ_self calls, hnew id hid⟩

variable [UnicodeData]

/-- A state with one more declaration. -/
theorem Construction.Explained.declare (huuid : Function.Injective uuid4)
    (h : state.Explained uuid4 declared) (hoperators : state'.operators = state.operators)
    (hcalls : state'.calls = state.calls + 1) (hlists : state'.Lists (declared ++ [declaration]))
    (hfits : declaration.Fits state.operators) (hflags : state'.Flags (declared ++ [declaration]))
    (hfinish : ∀ other ∈ declared, other.made.finish.key ≠ declaration.made.finish.key)
    (hid : ∀ id ∈ declaration.ioId?, id = uuid4 (.io state.calls)) :
    state'.Explained uuid4 (declared ++ [declaration]) := by
  refine ⟨hoperators ▸ h.operatorIds, ?_, hoperators ▸ h.operatorsFresh, hlists, ?_, hflags, ?_⟩
  · intro operator hoperator
    rw [hoperators] at hoperator
    obtain ⟨n, hn, hdrawn⟩ := h.operatorsDrawn operator hoperator
    exact ⟨n, by omega, hdrawn⟩
  · intro other hother
    rw [hoperators]
    rcases List.mem_append.mp hother with hother | hother
    · exact h.fits other hother
    · rw [List.mem_singleton.mp hother]
      exact hfits
  · rw [hcalls]
    exact h.apart.declare huuid hfinish hid

/-- A link to an input which is not blocked ends elsewhere than all others. -/
theorem Construction.Explained.finish_ne (h : state.Explained uuid4 declared) {key : UUID × UUID}
    (hblocked : key ∉ state.blocked) (hkey : declaration.made.finish.key = (some key.1, key.2)) :
    ∀ other ∈ declared, other.made.finish.key ≠ declaration.made.finish.key :=
  fun other hother heq => hblocked (h.flags.blocked other hother key (heq.trans hkey))

/-! ## Calls -/

omit [UnicodeData] in
/-- A created link has the ends it was given. -/
theorem ends_of_create {id : UUID} {start finish : Vertex} {made : Link}
    (h : Link.create id start finish = .ok made) : made.start = start ∧ made.finish = finish := by
  unfold Link.create at h
  split at h
  · obtain rfl := Except.ok.inj h
    exact ⟨rfl, rfl⟩
  · cases h

omit [UnicodeData] in
/-- A key is the one of a vertex at an operator. -/
theorem eq_of_operatorVertex_key {operatorId : UUID} {io : Io} {key : UUID × UUID}
    (h : (operatorVertex operatorId io).key = (some key.1, key.2)) : key = (operatorId, io.id) :=
  Prod.ext (Option.some.inj (congrArg Prod.fst h)).symm (congrArg Prod.snd h).symm

omit [UnicodeData] in
/-- The lists after one more link. -/
theorem Construction.Lists.withLink (h : state.Lists declared) (made : Link)
    (start finish : UUID × UUID) :
    (state.withLink made start finish).Lists (declared ++ [.link made]) := by
  obtain ⟨hlinks, hioLinks, houtputs, hinputs, hconstants, htrafoOutputs, htrafoInputs⟩ := h
  constructor <;> rw [Construction.withLink]
  · simp [hlinks, Declaration.link?]
  · simp [hioLinks, Declaration.ioLink?]
  · simp [houtputs, Declaration.output?]
  · simp [hinputs, Declaration.input?]
  · simp [hconstants, Declaration.constant?]
  · exact htrafoOutputs
  · exact htrafoInputs

omit [UnicodeData] in
/-- The lists after one more output. -/
theorem Construction.Lists.withOutput (h : state.Lists declared) (wfOutput : WorkflowContentOutput)
    (made : Link) :
    (state.withOutput wfOutput made).Lists (declared ++ [.output wfOutput made]) := by
  obtain ⟨hlinks, hioLinks, houtputs, hinputs, hconstants, htrafoOutputs, htrafoInputs⟩ := h
  constructor <;> rw [Construction.withOutput]
  · simp [hlinks, Declaration.link?]
  · simp [hioLinks, Declaration.ioLink?]
  · simp [houtputs, Declaration.output?]
  · simp [hinputs, Declaration.input?]
  · simp [hconstants, Declaration.constant?]
  · simp [htrafoOutputs]
  · exact htrafoInputs

omit [UnicodeData] in
/-- The lists after one more input. -/
theorem Construction.Lists.withInput (h : state.Lists declared)
    (wfInput : WorkflowContentDynamicInput V) (kind : InputTypeMixIn V) (made : Link) :
    (state.withInput wfInput kind made).Lists (declared ++ [.input wfInput made]) := by
  obtain ⟨hlinks, hioLinks, houtputs, hinputs, hconstants, htrafoOutputs, htrafoInputs⟩ := h
  constructor <;> rw [Construction.withInput]
  · simp [hlinks, Declaration.link?]
  · simp [hioLinks, Declaration.ioLink?]
  · simp [houtputs, Declaration.output?]
  · simp [hinputs, Declaration.input?]
  · simp [hconstants, Declaration.constant?]
  · exact htrafoOutputs
  · simp [htrafoInputs]

omit [UnicodeData] in
/-- The lists after one more constant. -/
theorem Construction.Lists.withConstant (h : state.Lists declared)
    (wfConstant : WorkflowContentConstantInput) (made : Link) :
    (state.withConstant wfConstant made).Lists (declared ++ [.constant wfConstant made]) := by
  obtain ⟨hlinks, hioLinks, houtputs, hinputs, hconstants, htrafoOutputs, htrafoInputs⟩ := h
  constructor <;> rw [Construction.withConstant]
  · simp [hlinks, Declaration.link?]
  · simp [hioLinks, Declaration.ioLink?]
  · simp [houtputs, Declaration.output?]
  · simp [hinputs, Declaration.input?]
  · simp [hconstants, Declaration.constant?]
  · exact htrafoOutputs
  · exact htrafoInputs

/-! ## Calls -/

/-- The method `link` declares a link. -/
theorem Construction.Explained.of_link (huuid : Function.Injective uuid4)
    (h : state.Explained uuid4 declared) {start finish : ConnectorRef}
    (hstep : state.link uuid4 start finish = .ok state') :
    ∃ declaration, state'.Explained uuid4 (declared ++ [declaration]) := by
  unfold Construction.link at hstep
  simp only [bind_eq_ok, require_eq_ok, decide_eq_true_eq, return_eq_ok] at hstep
  obtain ⟨⟨startOperator, output⟩, houtput, ⟨finishOperator, input⟩, hinput, -, hblocked, -,
    hfree, made, hmade, rfl⟩ := hstep
  obtain ⟨hstart, hfinish⟩ := ends_of_create hmade
  refine ⟨.link made, h.declare huuid rfl rfl (h.lists.withLink _ _ _) ?_ ?_ ?_
    (fun id hid => by cases hid)⟩
  · refine ⟨⟨output, ?_⟩, input, ?_⟩
    · rw [hstart]
      exact Construction.atOutput_of_findOutput houtput
    · rw [hfinish]
      exact Construction.atInput_of_findInput hinput
  · refine h.flags.declare (List.subset_cons_self _ _) (List.subset_cons_self _ _)
      (List.Subset.refl _) ?_ ?_ (fun _ _ heq => by cases heq) ?_
    · intro key heq
      rw [Declaration.made, hfinish] at heq
      rw [eq_of_operatorVertex_key heq]
      exact List.mem_cons_self
    · intro made' hmade' key heq
      obtain rfl := Declaration.link.inj hmade'
      rw [hstart] at heq
      rw [eq_of_operatorVertex_key heq]
      exact List.mem_cons_self
    · intro key hmem
      rcases List.mem_cons.mp hmem with rfl | hmem
      · exact hfree
      · exact h.flags.disjoint key hmem
  · refine h.finish_ne hblocked ?_
    rw [Declaration.made, hfinish]
    rfl

/-- A declared io at an operator input which is not blocked, by its input or constant. -/
theorem Construction.Explained.declare_input (huuid : Function.Injective uuid4)
    (h : state.Explained uuid4 declared) {operator : Operator V} {input : OperatorInput V}
    (hblocked : (operator.id, input.id) ∉ state.blocked)
    (hoperators : state'.operators = state.operators) (hcalls : state'.calls = state.calls + 1)
    (hkeys : state'.blocked = (operator.id, input.id) :: state.blocked ∧
      state'.linkStarts = state.linkStarts ∧ state'.trafoOutputKeys = state.trafoOutputKeys)
    (hlists : state'.Lists (declared ++ [declaration])) (hfits : declaration.Fits state.operators)
    (hmade : declaration.made.finish = operatorVertex operator.id input.toIo)
    (hlink : ∀ made, declaration ≠ .link made)
    (houtput : ∀ wfOutput made, declaration ≠ .output wfOutput made)
    (hid : ∀ id ∈ declaration.ioId?, id = uuid4 (.io state.calls)) :
    state'.Explained uuid4 (declared ++ [declaration]) := by
  obtain ⟨hkeys, hstarts, houtputs⟩ := hkeys
  refine h.declare huuid hoperators hcalls hlists hfits ?_ ?_ hid
  · refine h.flags.declare (hkeys ▸ List.subset_cons_self _ _) (hstarts ▸ List.Subset.refl _)
      (houtputs ▸ List.Subset.refl _) ?_ (fun made heq => absurd heq (hlink made))
      (fun wfOutput made heq => absurd heq (houtput wfOutput made)) ?_
    · intro key heq
      rw [hmade] at heq
      rw [eq_of_operatorVertex_key heq, hkeys]
      exact List.mem_cons_self
    · rw [hstarts, houtputs]
      exact h.flags.disjoint
  · refine h.finish_ne hblocked ?_
    rw [hmade]
    rfl

/-- The method `input` declares an input. -/
theorem Construction.Explained.of_input (huuid : Function.Injective uuid4)
    (h : state.Explained uuid4 declared) {options : ConstructionOptions V} {name : PyStr}
    {target : ConnectorRef} {optional : Bool} {defaultValue : Option V}
    (hstep : state.input options uuid4 name target optional defaultValue = .ok state') :
    ∃ declaration, state'.Explained uuid4 (declared ++ [declaration]) := by
  unfold Construction.input at hstep
  simp only [bind_eq_ok, require_eq_ok, decide_eq_true_eq, return_eq_ok] at hstep
  obtain ⟨⟨operator, input⟩, hinput, -, hblocked, rfl⟩ := hstep
  have hat := Construction.atInput_of_findInput hinput
  refine ⟨_, h.declare_input huuid hblocked rfl rfl ⟨rfl, rfl, rfl⟩ (h.lists.withInput _ _ _) ?_ rfl
    (fun _ heq => by cases heq) (fun _ _ heq => by cases heq) ?_⟩
  · exact ⟨⟨rfl, rfl, rfl, input, hat, rfl⟩, rfl⟩
  · exact fun id hid => (Option.some.inj hid).symm

/-- The method `constant` declares a constant. -/
theorem Construction.Explained.of_constant (huuid : Function.Injective uuid4)
    (h : state.Explained uuid4 declared) {target : ConnectorRef} {value : PyStr}
    (hstep : state.constant uuid4 target value = .ok state') :
    ∃ declaration, state'.Explained uuid4 (declared ++ [declaration]) := by
  unfold Construction.constant at hstep
  simp only [bind_eq_ok, require_eq_ok, decide_eq_true_eq, return_eq_ok] at hstep
  obtain ⟨⟨operator, input⟩, hinput, -, hblocked, rfl⟩ := hstep
  have hat := Construction.atInput_of_findInput hinput
  refine ⟨_, h.declare_input huuid hblocked rfl rfl ⟨rfl, rfl, rfl⟩ (h.lists.withConstant _ _) ?_ rfl
    (fun _ heq => by cases heq) (fun _ _ heq => by cases heq) ?_⟩
  · exact ⟨rfl, rfl, rfl, input, hat, rfl⟩
  · exact fun id hid => (Option.some.inj hid).symm

/-- No link has ended at an output with a new id. -/
theorem Construction.Explained.finish_ne_outer (huuid : Function.Injective uuid4)
    (h : state.Explained uuid4 declared) :
    ∀ other ∈ declared, other.made.finish.key ≠ (none, uuid4 (.io state.calls)) := by
  intro other hother heq
  have hfits := h.fits other hother
  have houter {io : WorkflowContentIo} (hkey : other.made.finish.key =
      (some io.operatorId, io.connectorId)) : False := by
    cases (congrArg Prod.fst hkey).symm.trans (congrArg Prod.fst heq)
  cases other with
  | link made =>
    obtain ⟨-, input, operator, -, -, hfinish⟩ := hfits
    rw [Declaration.made, hfinish] at heq
    cases congrArg Prod.fst heq
  | output wfOutput made =>
    have hid : wfOutput.id = uuid4 (.io state.calls) := by
      rw [Declaration.made, hfits.finish] at heq
      exact congrArg Prod.snd heq
    obtain ⟨n, hn, hdrawn⟩ := h.apart.drawn _ (List.mem_filterMap.mpr ⟨_, hother, rfl⟩)
    have hsame := ConstructionDraw.io.inj (huuid (hdrawn.symm.trans hid))
    omega
  | input wfInput made => exact houter hfits.1.key
  | constant wfConstant made => exact houter hfits.key

/-- The method `output` declares an output. -/
theorem Construction.Explained.of_output (huuid : Function.Injective uuid4)
    (h : state.Explained uuid4 declared) {name : PyStr} {source : ConnectorRef}
    (hstep : state.output uuid4 name source = .ok state') :
    ∃ declaration, state'.Explained uuid4 (declared ++ [declaration]) := by
  unfold Construction.output at hstep
  simp only [bind_eq_ok, require_eq_ok, decide_eq_true_eq, return_eq_ok] at hstep
  obtain ⟨⟨operator, output⟩, houtput, -, hfree, rfl⟩ := hstep
  have hat := Construction.atOutput_of_findOutput houtput
  refine ⟨_, h.declare huuid rfl rfl (h.lists.withOutput _ _) ?_ ?_ (h.finish_ne_outer huuid) ?_⟩
  · exact ⟨rfl, rfl, output, hat, rfl⟩
  · refine h.flags.declare (List.Subset.refl _) (List.Subset.refl _) (List.subset_cons_self _ _)
      ?_ (fun _ heq => by cases heq) ?_ ?_
    · intro key heq
      cases congrArg Prod.fst heq
    · intro wfOutput made heq
      rw [← (Declaration.output.inj heq).1]
      exact List.mem_cons_self
    · intro key hkey hmem
      rcases List.mem_cons.mp hmem with rfl | hmem
      · exact hfree hkey
      · exact h.flags.disjoint key hkey hmem
  · exact fun id hid => (Option.some.inj hid).symm

omit [UnicodeData] in
/-- The ios of an operator made of a revision are at the origin. -/
theorem positions_toOperator (draws : WrapperDraw → UUID) (trafo : TransformationRevision V W) :
    (∀ input ∈ (trafo.toOperator draws).inputs, input.position = .origin) ∧
      ∀ output ∈ (trafo.toOperator draws).outputs, output.position = .origin := by
  constructor
  · intro input hinput
    obtain ⟨i, hi, rfl⟩ := List.mem_mapIdx.mp hinput
    rfl
  · intro output houtput
    obtain ⟨i, hi, rfl⟩ := List.mem_mapIdx.mp houtput
    rfl

/-- The method `op` adds an operator. -/
theorem Construction.Explained.of_op (huuid : Function.Injective uuid4)
    (h : state.Explained uuid4 declared) {options : ConstructionOptions V}
    {trafo : TransformationRevision V W} {name : Option PyStr}
    (hstep : state.op options uuid4 trafo name = .ok state') :
    state'.Explained uuid4 declared := by
  unfold Construction.op at hstep
  simp only [bind_eq_ok, require_eq_ok, return_eq_ok] at hstep
  obtain ⟨-, hstrings, rfl⟩ := hstep
  have hdraws : Function.Injective fun draw => uuid4 (.operator state.calls draw) :=
    fun draw draw' heq => (ConstructionDraw.operator.inj (huuid heq)).2
  obtain ⟨hinputs, houtputs⟩ := nodup_toOperator_ids hdraws trafo
  have hexposed : ∀ input ∈ (trafo.toOperator fun draw =>
      uuid4 (.operator state.calls draw)).inputs, input.exposed = true := exposed_toOperator
  obtain ⟨hinputPositions, houtputPositions⟩ :=
    positions_toOperator (fun draw => uuid4 (.operator state.calls draw)) trafo
  refine ⟨?_, ?_, ?_, ⟨h.lists.links, h.lists.ioLinks, h.lists.contentOutputs,
    h.lists.contentInputs, h.lists.constants, h.lists.trafoOutputs, h.lists.trafoInputs⟩, ?_,
    ⟨h.flags.blocked, h.flags.linkStarts, h.flags.trafoOutputKeys, h.flags.disjoint⟩,
    h.apart.finishes, h.apart.ioIds, ?_⟩
  · rw [List.map_append, List.nodup_append]
    refine ⟨h.operatorIds, List.nodup_singleton _, ?_⟩
    rintro id hid id' hid' rfl
    obtain ⟨operator, hoperator, rfl⟩ := List.mem_map.mp hid
    obtain ⟨n, hn, hdrawn⟩ := h.operatorsDrawn operator hoperator
    have hnew := hdrawn.symm.trans (List.mem_singleton.mp hid')
    have hsame := (ConstructionDraw.operator.inj (huuid hnew)).1
    omega
  · intro operator hoperator
    rcases List.mem_append.mp hoperator with hoperator | hoperator
    · obtain ⟨n, hn, hdrawn⟩ := h.operatorsDrawn operator hoperator
      exact ⟨n, Nat.lt_succ_of_lt hn, hdrawn⟩
    · rw [List.mem_singleton.mp hoperator]
      exact ⟨state.calls, Nat.lt_succ_self _, rfl⟩
  · intro operator hoperator
    rcases List.mem_append.mp hoperator with hoperator | hoperator
    · exact h.operatorsFresh operator hoperator
    · rw [List.mem_singleton.mp hoperator]
      exact ⟨hstrings, hinputs, houtputs, hexposed, hinputPositions, houtputPositions⟩
  · exact fun declaration hdeclaration =>
      (h.fits declaration hdeclaration).mono (List.subset_append_left _ _)
  · intro id hid
    obtain ⟨n, hn, hdrawn⟩ := h.apart.drawn id hid
    exact ⟨n, Nat.lt_succ_of_lt hn, hdrawn⟩

/-- A call which does not raise leaves a state which is explained. -/
theorem Construction.Explained.of_call (huuid : Function.Injective uuid4)
    (h : state.Explained uuid4 declared) {options : ConstructionOptions V}
    {call : ConstructionCall V W} (hstep : state.call options uuid4 call = .ok state') :
    ∃ declared', state'.Explained uuid4 declared' := by
  cases call with
  | op trafo name => exact ⟨declared, h.of_op huuid hstep⟩
  | link start finish => exact (h.of_link huuid hstep).imp' _ fun _ h => h
  | output name source => exact (h.of_output huuid hstep).imp' _ fun _ h => h
  | input name target optional defaultValue => exact (h.of_input huuid hstep).imp' _ fun _ h => h
  | constant target value => exact (h.of_constant huuid hstep).imp' _ fun _ h => h

/-- At first there are no declarations. -/
theorem Construction.explained_empty : (Construction.empty : Construction V).Explained uuid4 [] where
  operatorIds := List.nodup_nil
  operatorsDrawn _ h := absurd h List.not_mem_nil
  operatorsFresh _ h := absurd h List.not_mem_nil
  lists := ⟨rfl, rfl, rfl, rfl, rfl, rfl, rfl⟩
  fits _ h := absurd h List.not_mem_nil
  flags := ⟨fun _ h => absurd h List.not_mem_nil, fun _ h => absurd h List.not_mem_nil,
    fun _ _ h => absurd h List.not_mem_nil, fun _ h => absurd h List.not_mem_nil⟩
  apart := ⟨List.nodup_nil, List.nodup_nil, fun _ h => absurd h List.not_mem_nil⟩

/-- Further calls none of which raises keep a state explained. -/
theorem Construction.Explained.of_calls (huuid : Function.Injective uuid4)
    (h : state.Explained uuid4 declared) {options : ConstructionOptions V}
    {calls : List (ConstructionCall V W)}
    (hcalls : calls.foldlM (fun state call => state.call options uuid4 call) state = .ok state') :
    ∃ declared', state'.Explained uuid4 declared' := by
  induction calls generalizing state declared with
  | nil =>
    obtain rfl := return_eq_ok.mp hcalls
    exact ⟨declared, h⟩
  | cons call rest ih =>
    rw [List.foldlM_cons, bind_eq_ok] at hcalls
    obtain ⟨next, hnext, hrest⟩ := hcalls
    obtain ⟨declared', h'⟩ := h.of_call huuid hnext
    exact ih h' hrest

/-- Calls none of which raises leave a state which is explained. -/
theorem explained_of_construct (huuid : Function.Injective uuid4)
    {options : ConstructionOptions V} {calls : List (ConstructionCall V W)}
    (hcalls : construct options uuid4 calls = .ok state) :
    ∃ declared, state.Explained uuid4 declared :=
  Construction.explained_empty.of_calls huuid hcalls

end Declare

end HetidaDesigner
