import HetidaDesigner.Backend.Fallback
import HetidaDesigner.Validation.IoInterface
import HetidaDesigner.Validation.Sources
import Mathlib.Data.Char
import Mathlib.Data.List.Lex
import Mathlib.Data.List.ReduceOption

/-!
# Endpoints of the component adapter

The functions of `component_adapter/structure.py`. Sources are components with one output, sinks
those with a data input and without outputs. Each endpoint reads the components it needs from the
database and combines the two lists of allowed categories in its own way.
-/

namespace HetidaDesigner

open Checks KeyedList

/-- Reasons for an endpoint to fail. -/
inductive AdapterError
  | store (error : StoreError)
  | adapterHandling
  | valueError
  deriving DecidableEq, Repr

/-- The mapping `data_type_to_external_type_map`. -/
def dataTypeToExternalType : DataType → ExternalType
  | .integer => .metadata .int
  | .float => .metadata .float
  | .string => .metadata .string
  | .dataFrame => .dataframe
  | .series => .timeseries .numeric
  | .multiTSFrame => .multitsframe
  | .boolean => .metadata .boolean
  | .any => .metadata .any
  | .plotlyJson => .plotlyjson

/-- A filter of a component source or sink; all are of type `free_text`. -/
structure ComponentFilter (V : Type) where
  name : PyStr
  required : Bool
  defaultValue : Option V
  deriving DecidableEq

/-- A component as source or sink. -/
structure ComponentAdapterEntry (V : Type) where
  id : PyStr
  thingNodeId : PyStr
  name : PyStr
  type : ExternalType
  path : PyStr
  filters : List (PyStr × ComponentFilter V)
  deriving DecidableEq

/-- A category of components. -/
structure ComponentThingNode where
  id : PyStr
  name : PyStr
  description : PyStr
  deriving DecidableEq, Repr

/-- What `get_structure` returns. -/
structure ComponentStructureResponse (V : Type) where
  thingNodes : List ComponentThingNode
  sources : List (ComponentAdapterEntry V)
  sinks : List (ComponentAdapterEntry V)

/-- Sources or sinks. -/
inductive AdapterSide
  | source
  | sink
  deriving DecidableEq, Repr

/-! ## Components as sources and sinks -/

section Entries

variable {V D : Type}

/-- `extract_filters_from_component` -/
def extractFiltersFromComponent (component : Revision V D) (asSink : Bool) :
    List (PyStr × ComponentFilter V) :=
  insertAll Prod.fst [] (component.ioInterface.inputs.filterMap fun input =>
    match input.name with
    | none => none
    | some name =>
      if (asSink && name = "data".toList) || name = "timestampFrom".toList ||
          name = "timestampTo".toList then none
      else some (name, ⟨name, input.type = .required, input.value⟩))

/-- The entry for a component whose data is of a type. -/
def componentEntry (component : Revision V D) (asSink : Bool) (dataType : DataType) :
    ComponentAdapterEntry V where
  id := uuidStr component.id
  thingNodeId := component.category
  name := component.name ++ " (".toList ++ component.versionTag ++ ")".toList
  type := dataTypeToExternalType dataType
  path := component.category ++ "/".toList ++ component.name ++ " (".toList ++
    component.versionTag ++ ")".toList
  filters := extractFiltersFromComponent component asSink

/-- `get_data_input` -/
def getDataInput (trafo : Revision V D) : Except AdapterError (TransformationInput V) :=
  match trafo.ioInterface.inputs.filter fun input => input.name = some "data".toList with
  | [input] => .ok input
  | _ => .error .valueError

/-- The source or sink which a component is, if it can be one. -/
def AdapterSide.wrap (side : AdapterSide) (component : Revision V D) :
    Except AdapterError (Option (ComponentAdapterEntry V)) :=
  match side, component.ioInterface.outputs with
  | .source, [output] => .ok (some (componentEntry component false output.dataType))
  | .sink, [] =>
    if component.ioInterface.inputs.any fun input => input.name = some "data".toList then do
      let input ← getDataInput component
      return some (componentEntry component true input.dataType)
    else .ok none
  | _, _ => .ok none

/-- The categories which are allowed on a side, if they are restricted. -/
def AdapterSide.allowedCategories (side : AdapterSide) (config : ComponentAdapterConfig) :
    Option (List PyStr) :=
  match side with
  | .source => config.allowedSourceCategories
  | .sink => config.allowedSinkCategories

/-- The validation of components which are used in wirings. -/
def AdapterSide.validTrafo (side : AdapterSide) (config : ComponentAdapterConfig)
    (trafo : Revision V D) : Bool :=
  match side with
  | .source => validSourceTrafo config trafo
  | .sink => validSinkTrafo config trafo

/-- The other side. -/
def AdapterSide.other : AdapterSide → AdapterSide
  | .source => .sink
  | .sink => .source

end Entries

/-- `get_allowed_component_states` -/
def getAllowedComponentStates (config : ComponentAdapterConfig) (allowDisabled : Bool) :
    List State :=
  (if config.allowDraftComponents then [.released, .draft] else [.released]) ++
    if allowDisabled then [.disabled] else []

/-! ## The endpoints -/

/-- What the endpoints depend on: the configurations of adapter and wirings, the case mapping of
texts, and the ids drawn for unnamed ios of workflows. -/
structure ComponentAdapterTools where
  config : ComponentAdapterConfig
  wirings : WiringConfig
  numerals : NumeralTables
  lower : PyStr → PyStr
  uuid4 : UUID → ℕ → UUID

section Endpoints

variable [UnicodeData] {V J : Type} [DecidableEq V] [DecidableEq J]
  (tools : ComponentAdapterTools) (db : Database V (WiringData J))

/-- The rows which `multiple_trafo_select_filtered` selects. -/
def multipleTrafoSelectFiltered (type : TrafoType) (categories : Option (List PyStr))
    (ids : Option (List UUID)) (states : List State) : List (Revision V (WiringData J)) :=
  db.revisions.filter fun row => row.type = type && row.state ∈ states &&
    (categories.all fun categories => row.category ∈ categories) &&
    ids.all fun ids => row.id ∈ ids

/-- Read the row of a component. -/
def readComponent (row : Revision V (WiringData J)) :
    Except AdapterError (Revision V (WiringData J)) :=
  (readRevision tools.wirings db tools.uuid4 row.id).mapError .store

/-- `get_all_component_sources` and `get_all_component_sinks` -/
def getAllComponents (side : AdapterSide) (ids : Option (List UUID))
    (allowedCategories : Option (List PyStr)) (withDisabledComponents : Bool) :
    Except AdapterError (List (ComponentAdapterEntry V)) := do
  let components ← (multipleTrafoSelectFiltered db .component allowedCategories ids
    (getAllowedComponentStates tools.config withDisabledComponents)).mapM (readComponent tools db)
  let entries ← components.mapM side.wrap
  return entries.reduceOption.mergeSort fun a b => a.name ≤ b.name

/-- Whether a category can be browsed. -/
def categoryBrowsable (config : ComponentAdapterConfig) (category : PyStr) : Bool :=
  config.allowedSourceCategories.all fun sourceCategories =>
    config.allowedSinkCategories.all fun sinkCategories =>
      category ∈ sourceCategories || category ∈ sinkCategories

/-- The thing node of a category. -/
def categoryThingNode (category : PyStr) : ComponentThingNode where
  id := category
  name := category
  description := "Components suitable as sources/sinks in category ".toList ++ category

/-- `get_distinct_categories` for components -/
def getDistinctCategories : List PyStr :=
  ((db.revisions.filter fun row => row.type = .component).map fun row => row.category).dedup

/-- `get_structure` -/
def getStructure : Option PyStr → Except AdapterError (ComponentStructureResponse V)
  | none => .ok {
      thingNodes := (((getDistinctCategories db).filter (categoryBrowsable tools.config)).mergeSort
        fun a b => a ≤ b).map categoryThingNode
      sources := []
      sinks := [] }
  | some parentId =>
    if categoryBrowsable tools.config parentId then do
      let sources ← getAllComponents tools db .source none (some [parentId]) false
      let sinks ← getAllComponents tools db .sink none (some [parentId]) false
      return ⟨[], sources, sinks⟩
    else .ok ⟨[], [], []⟩

/-- `get_source_by_id` and `get_sink_by_id` -/
def getComponentById (side : AdapterSide) (id : PyStr) :
    Except AdapterError (Option (ComponentAdapterEntry V)) :=
  match uuidOfText tools.numerals id with
  | none => .error .valueError
  | some uuid => do
    let entries ← getAllComponents tools db side (some [uuid]) none true
    match entries with
    | [] => return none
    | [entry] =>
      return if (side.allowedCategories tools.config).all fun categories =>
        entry.thingNodeId ∈ categories then some entry else none
    | _ => throw .adapterHandling

/-- `get_sources` and `get_sinks` -/
def getComponents (side : AdapterSide) (filterStr : Option PyStr) :
    Except AdapterError (List (ComponentAdapterEntry V)) := do
  let entries ← getAllComponents tools db side none (side.allowedCategories tools.config) false
  return entries.filter fun entry =>
    filterStr.all fun text => tools.lower text <:+: tools.lower entry.name

end Endpoints

/-! ## What the endpoints should agree on -/

section Agreement

variable [UnicodeData] {V J : Type} [DecidableEq V] [DecidableEq J]
  (tools : ComponentAdapterTools) (db : Database V (WiringData J)) (side : AdapterSide)

/-- The sources or sinks of a response. -/
def ComponentStructureResponse.entries {V : Type} (response : ComponentStructureResponse V) :
    AdapterSide → List (ComponentAdapterEntry V)
  | .source => response.sources
  | .sink => response.sinks

/-- An entry is shown under a category. -/
def ShownIn (category : PyStr) (entry : ComponentAdapterEntry V) : Prop :=
  ∃ response, getStructure tools db (some category) = .ok response ∧
    entry ∈ response.entries side

/-- An entry is listed. -/
def Listed (entry : ComponentAdapterEntry V) : Prop :=
  ∃ entries, getComponents tools db side none = .ok entries ∧ entry ∈ entries

/-- An entry is found by its id. -/
def FoundById (entry : ComponentAdapterEntry V) : Prop :=
  getComponentById tools db side entry.id = .ok (some entry)

/-- The sources or sinks of components which are not disabled are shown, listed and found by their
ids alike, and then the components are accepted in wirings. -/
def EndpointsAgree : Prop :=
  ∀ row ∈ db.revisions, row.type = .component → row.state ≠ .disabled →
    ∀ component entry, readComponent tools db row = .ok component →
      side.wrap component = .ok (some entry) →
        (ShownIn tools db side row.category entry ↔ Listed tools db side entry) ∧
          (Listed tools db side entry ↔ FoundById tools db side entry) ∧
          (Listed tools db side entry → side.validTrafo tools.config component = true)

/-- A category is allowed on a side. -/
def AllowedOn (config : ComponentAdapterConfig) (category : PyStr) : Prop :=
  ∀ categories ∈ side.allowedCategories config, category ∈ categories

/-- All components in some categories which are neither disabled nor excluded as drafts can be
read. -/
def ComponentsReadable (categories : Option (List PyStr)) : Prop :=
  ∀ row ∈ db.revisions, row.type = .component →
    row.state ∈ getAllowedComponentStates tools.config false →
      (∀ allowed ∈ categories, row.category ∈ allowed) →
        ∃ component, readComponent tools db row = .ok component

/-- The condition for a side. If the category of a source or sink is allowed, all components of
allowed categories can be read; otherwise the list of the other side excludes it, too, or a
component of the category cannot be read. -/
def ListsConsistent : Prop :=
  ∀ row ∈ db.revisions, row.type = .component →
    row.state ∈ getAllowedComponentStates tools.config false →
      ∀ component entry, readComponent tools db row = .ok component →
        side.wrap component = .ok (some entry) →
          (AllowedOn side tools.config row.category →
            ComponentsReadable tools db (side.allowedCategories tools.config)) ∧
          (¬ AllowedOn side tools.config row.category →
            ¬ AllowedOn side.other tools.config row.category ∨
              ¬ ComponentsReadable tools db (some [row.category]))

end Agreement

/-! ## Reading components -/

section Read

variable [UnicodeData] {V J : Type} [DecidableEq V] [DecidableEq J]
  {tools : ComponentAdapterTools} {db : Database V (WiringData J)} {side : AdapterSide}

/-- Reading a component keeps what the endpoints select by, and its ios have unique names. -/
structure ReadAs (row component : Revision V (WiringData J)) : Prop where
  id : component.id = row.id
  type : component.type = row.type
  state : component.state = row.state
  category : component.category = row.category
  names : component.ioInterface.ioNamesUnique = true

/-- A component is read as it is stored. -/
theorem readAs_of_readComponent {row component : Revision V (WiringData J)}
    (hrow : row ∈ db.revisions) (htype : row.type = .component)
    (h : readComponent tools db row = .ok component) : ReadAs row component := by
  obtain ⟨selected, hselected, testWiring, -, releaseWiring, -, rfl⟩ :=
    readRevision_eq_ok.mp (mapError_eq_ok.mp h)
  obtain ⟨found, hfound, hvalid⟩ := Database.selectTrById_eq_ok.mp hselected
  obtain rfl := Option.some.inj ((Database.find_of_mem hrow).symm.trans hfound)
  unfold TransformationRevision.validate TransformationRevision.validateWith at hvalid
  simp only [require_bind_eq_ok] at hvalid
  obtain ⟨-, -, -, hnames, -, hvalid⟩ := hvalid
  split at hvalid
  · obtain rfl := return_eq_ok.mp hvalid
    exact ⟨rfl, rfl, rfl, rfl, hnames⟩
  · rename_i hworkflow _
    exact absurd (htype.symm.trans hworkflow) nofun
  · cases hvalid

omit [UnicodeData] [DecidableEq V] [DecidableEq J] in
/-- With unique names there is only one data input. -/
theorem exists_getDataInput {component : Revision V (WiringData J)}
    (hnames : component.ioInterface.ioNamesUnique = true)
    (h : (component.ioInterface.inputs.any fun input => input.name = some "data".toList) = true) :
    ∃ input, getDataInput component = .ok input := by
  obtain ⟨input, hinput, hname⟩ := List.any_eq_true.mp h
  have hmem : input ∈
      component.ioInterface.inputs.filter fun input => input.name = some "data".toList :=
    List.mem_filter.mpr ⟨hinput, hname⟩
  have hnodup := of_decide_eq_true (of_decide_eq_true hnames).1
  have hsublist := (((List.filter_sublist (l := component.ioInterface.inputs)
    (p := fun input => input.name = some "data".toList)).map
      TransformationInput.toIo).filter Io.named).map Io.name
  have hall : ∀ input ∈ component.ioInterface.inputs.filter
      (fun input => input.name = some "data".toList), input.name = some "data".toList := by
    intro input hinput
    simpa using (List.mem_filter.mp hinput).2
  unfold getDataInput
  generalize component.ioInterface.inputs.filter
    (fun input => input.name = some "data".toList) = found at hmem hsublist hall
  match found with
  | [] => exact absurd hmem List.not_mem_nil
  | [input] => exact ⟨input, rfl⟩
  | first :: second :: rest =>
    have hfirst := hall first List.mem_cons_self
    have hsecond := hall second (List.mem_cons_of_mem _ List.mem_cons_self)
    have hnot := hnodup.sublist hsublist
    simp [Io.named, hfirst, hsecond] at hnot

omit [UnicodeData] [DecidableEq V] [DecidableEq J] in
/-- With unique names it is decided whether a component can be used on a side. -/
theorem exists_wrap {component : Revision V (WiringData J)}
    (hnames : component.ioInterface.ioNamesUnique = true) (side : AdapterSide) :
    ∃ result, side.wrap component = .ok result := by
  unfold AdapterSide.wrap
  split
  · exact ⟨_, rfl⟩
  · split
    · rename_i hdata
      obtain ⟨input, hinput⟩ := exists_getDataInput hnames hdata
      rw [hinput]
      exact ⟨_, rfl⟩
    · exact ⟨_, rfl⟩
  · exact ⟨_, rfl⟩

omit [UnicodeData] [DecidableEq V] [DecidableEq J] in
/-- An entry has id and category of its component. -/
theorem entry_of_wrap {component : Revision V (WiringData J)} {entry : ComponentAdapterEntry V}
    (h : side.wrap component = .ok (some entry)) :
    entry.id = uuidStr component.id ∧ entry.thingNodeId = component.category := by
  unfold AdapterSide.wrap at h
  split at h
  · obtain rfl := Option.some.inj (Except.ok.inj h)
    exact ⟨rfl, rfl⟩
  · split at h
    · obtain ⟨input, -, h⟩ := bind_eq_ok.mp h
      obtain rfl := Option.some.inj (return_eq_ok.mp h)
      exact ⟨rfl, rfl⟩
    · cases h
  · cases h

omit [UnicodeData] [DecidableEq V] [DecidableEq J] in
/-- Selected rows satisfy all conditions. -/
theorem mem_multipleTrafoSelectFiltered {type : TrafoType} {categories : Option (List PyStr)}
    {ids : Option (List UUID)} {states : List State} {row : Revision V (WiringData J)} :
    row ∈ multipleTrafoSelectFiltered db type categories ids states ↔
      row ∈ db.revisions ∧ row.type = type ∧ row.state ∈ states ∧
        (∀ allowed ∈ categories, row.category ∈ allowed) ∧ ∀ allowed ∈ ids, row.id ∈ allowed := by
  rw [multipleTrafoSelectFiltered, List.mem_filter]
  cases categories <;> cases ids <;> simp [and_assoc]

/-- What is obtained of the components: all selected rows can be read, and the entries are those of
the rows which can be used on the side. -/
theorem getAllComponents_spec {ids : Option (List UUID)} {categories : Option (List PyStr)}
    {withDisabled : Bool} {entries : List (ComponentAdapterEntry V)}
    (h : getAllComponents tools db side ids categories withDisabled = .ok entries) :
    (∀ row ∈ multipleTrafoSelectFiltered db .component categories ids
        (getAllowedComponentStates tools.config withDisabled),
      ∃ component, readComponent tools db row = .ok component) ∧
    ∀ entry, entry ∈ entries ↔
      ∃ row ∈ multipleTrafoSelectFiltered db .component categories ids
          (getAllowedComponentStates tools.config withDisabled),
        ∃ component, readComponent tools db row = .ok component ∧
          side.wrap component = .ok (some entry) := by
  obtain ⟨components, hcomponents, h⟩ := bind_eq_ok.mp h
  obtain ⟨wrapped, hwrapped, h⟩ := bind_eq_ok.mp h
  obtain rfl := return_eq_ok.mp h
  constructor
  · intro row hrow
    obtain ⟨component, -, hread⟩ := exists_of_mapM hcomponents hrow
    exact ⟨component, hread⟩
  · intro entry
    rw [List.mem_mergeSort, List.reduceOption_mem_iff]
    constructor
    · intro hentry
      obtain ⟨component, hcomponent, hwrap⟩ := exists_argument_of_mapM hwrapped hentry
      obtain ⟨row, hrow, hread⟩ := exists_argument_of_mapM hcomponents hcomponent
      exact ⟨row, hrow, component, hread, hwrap⟩
    · intro ⟨row, hrow, component, hread, hwrap⟩
      obtain ⟨component', hcomponent, hread'⟩ := exists_of_mapM hcomponents hrow
      obtain rfl := Except.ok.inj (hread.symm.trans hread')
      obtain ⟨result, hresult, hwrap'⟩ := exists_of_mapM hwrapped hcomponent
      rwa [Except.ok.inj (hwrap.symm.trans hwrap')]

/-- The components are obtained if all selected rows can be read. -/
theorem exists_getAllComponents {ids : Option (List UUID)} {categories : Option (List PyStr)}
    {withDisabled : Bool}
    (hreadable : ∀ row ∈ multipleTrafoSelectFiltered db .component categories ids
        (getAllowedComponentStates tools.config withDisabled),
      ∃ component, readComponent tools db row = .ok component) :
    ∃ entries, getAllComponents tools db side ids categories withDisabled = .ok entries := by
  obtain ⟨components, hcomponents⟩ := exists_mapM hreadable
  have hwraps : ∀ component ∈ components, ∃ result, side.wrap component = .ok result := by
    intro component hcomponent
    obtain ⟨row, hrow, hread⟩ := exists_argument_of_mapM hcomponents hcomponent
    obtain ⟨hstored, htype, -⟩ := mem_multipleTrafoSelectFiltered.mp hrow
    exact exists_wrap (readAs_of_readComponent hstored htype hread).names side
  obtain ⟨wrapped, hwrapped⟩ := exists_mapM hwraps
  exact ⟨_, bind_eq_ok.mpr ⟨components, hcomponents, bind_eq_ok.mpr ⟨wrapped, hwrapped, rfl⟩⟩⟩

/-- Components of some categories can be read exactly if the rows can which are selected for
them. -/
theorem componentsReadable_iff {categories : Option (List PyStr)} :
    ComponentsReadable tools db categories ↔
      ∀ row ∈ multipleTrafoSelectFiltered db .component categories none
          (getAllowedComponentStates tools.config false),
        ∃ component, readComponent tools db row = .ok component := by
  simp only [mem_multipleTrafoSelectFiltered, Option.mem_def, reduceCtorEq, false_imp_iff,
    implies_true, and_true, and_imp]
  rfl

/-- The rows of a category are among those of the allowed ones. -/
theorem ComponentsReadable.of_allowed {category : PyStr}
    (hallowed : AllowedOn side tools.config category)
    (h : ComponentsReadable tools db (side.allowedCategories tools.config)) :
    ComponentsReadable tools db (some [category]) := by
  intro row hrow htype hstate hcategory
  refine h row hrow htype hstate fun categories hcategories => ?_
  have hsame := hcategory [category] rfl
  rw [List.mem_singleton] at hsame
  rw [hsame]
  exact hallowed categories hcategories

/-! ## Each endpoint -/

omit [UnicodeData] in
/-- Without the disabled ones no state is the disabled one. -/
theorem active_of_mem_allowedStates {config : ComponentAdapterConfig} {state : State}
    (h : state ∈ getAllowedComponentStates config false) : state ≠ .disabled := by
  rintro rfl
  unfold getAllowedComponentStates at h
  split at h
  · exact absurd h (by decide)
  · exact absurd h (by decide)

omit [UnicodeData] in
/-- States with and without the disabled one. -/
theorem mem_allowedStates_iff (config : ComponentAdapterConfig) {state : State}
    (hactive : state ≠ .disabled) :
    state ∈ getAllowedComponentStates config true ↔
      state ∈ getAllowedComponentStates config false := by
  simp [getAllowedComponentStates, hactive]

section Entry

variable {row component : Revision V (WiringData J)} {entry : ComponentAdapterEntry V}
  (hrow : row ∈ db.revisions) (htype : row.type = .component)
  (hread : readComponent tools db row = .ok component)
  (hwrap : side.wrap component = .ok (some entry))

include hrow htype hread hwrap

/-- Without ids, the entry of a component is obtained exactly if its row is selected and all rows
can be read which are. -/
theorem mem_getAllComponents_iff {categories : Option (List PyStr)} :
    (∃ entries, getAllComponents tools db side none categories false = .ok entries ∧
        entry ∈ entries) ↔
      row.state ∈ getAllowedComponentStates tools.config false ∧
        (∀ allowed ∈ categories, row.category ∈ allowed) ∧
        ComponentsReadable tools db categories := by
  rw [componentsReadable_iff]
  constructor
  · intro ⟨entries, h, hentry⟩
    obtain ⟨hreadable, hmem⟩ := getAllComponents_spec h
    obtain ⟨row', hselected, component', hread', hwrap'⟩ := (hmem entry).mp hentry
    obtain ⟨hrow', htype', hstate', hcategory', -⟩ := mem_multipleTrafoSelectFiltered.mp hselected
    -- the ids tell that the entry comes from this row
    have hid : row'.id = row.id := by
      rw [← (readAs_of_readComponent hrow' htype' hread').id,
        ← (readAs_of_readComponent hrow htype hread).id]
      apply uuidStr_injective
      rw [← (entry_of_wrap hwrap').1, ← (entry_of_wrap hwrap).1]
    obtain rfl := KeyedList.eq_of_key_eq db.ids_unique hrow' hrow hid
    exact ⟨hstate', hcategory', hreadable⟩
  · intro ⟨hstate, hcategory, hreadable⟩
    obtain ⟨entries, h⟩ : ∃ entries, getAllComponents tools db side none categories false =
        .ok entries := exists_getAllComponents hreadable
    refine ⟨entries, h, ((getAllComponents_spec h).2 entry).mpr ⟨row, ?_, component, hread, hwrap⟩⟩
    exact mem_multipleTrafoSelectFiltered.mpr ⟨hrow, htype, hstate, hcategory, nofun⟩

/-- An entry is listed exactly if its category is allowed and all components which are to be listed
can be read. -/
theorem listed_iff : Listed tools db side entry ↔
    row.state ∈ getAllowedComponentStates tools.config false ∧
      AllowedOn side tools.config row.category ∧
      ComponentsReadable tools db (side.allowedCategories tools.config) := by
  rw [AllowedOn, ← mem_getAllComponents_iff hrow htype hread hwrap]
  unfold Listed getComponents
  constructor
  · intro ⟨entries, h, hentry⟩
    obtain ⟨all, hall, h⟩ := bind_eq_ok.mp h
    obtain rfl := return_eq_ok.mp h
    exact ⟨all, hall, (List.mem_filter.mp hentry).1⟩
  · intro ⟨entries, h, hentry⟩
    refine ⟨_, bind_eq_ok.mpr ⟨entries, h, rfl⟩, List.mem_filter.mpr ⟨hentry, rfl⟩⟩

/-- An entry is shown under its category exactly if this is allowed on one of the sides and all its
components can be read. -/
theorem shownIn_iff : ShownIn tools db side row.category entry ↔
    row.state ∈ getAllowedComponentStates tools.config false ∧
      (AllowedOn side tools.config row.category ∨
        AllowedOn side.other tools.config row.category) ∧
      ComponentsReadable tools db (some [row.category]) := by
  have hbrowsable : categoryBrowsable tools.config row.category = true ↔
      AllowedOn side tools.config row.category ∨
        AllowedOn side.other tools.config row.category := by
    have hsource : AllowedOn .source tools.config row.category ↔
        tools.config.allowedSourceCategories.all (row.category ∈ ·) = true := by
      unfold AllowedOn AdapterSide.allowedCategories
      cases tools.config.allowedSourceCategories <;> simp
    have hsink : AllowedOn .sink tools.config row.category ↔
        tools.config.allowedSinkCategories.all (row.category ∈ ·) = true := by
      unfold AllowedOn AdapterSide.allowedCategories
      cases tools.config.allowedSinkCategories <;> simp
    have heither : categoryBrowsable tools.config row.category = true ↔
        AllowedOn .source tools.config row.category ∨ AllowedOn .sink tools.config row.category := by
      rw [hsource, hsink, categoryBrowsable]
      cases tools.config.allowedSourceCategories <;> cases tools.config.allowedSinkCategories <;>
        simp
    cases side with
    | source => exact heither
    | sink => exact heither.trans or_comm
  have hobtained : (∃ entries,
      getAllComponents tools db side none (some [row.category]) false = .ok entries ∧
        entry ∈ entries) ↔ _ := mem_getAllComponents_iff hrow htype hread hwrap
  have hcategory : ∀ allowed ∈ some [row.category], row.category ∈ allowed := by simp
  rw [and_iff_right hcategory] at hobtained
  rw [← hbrowsable, and_left_comm, ← hobtained]
  unfold ShownIn
  cases hbrowse : categoryBrowsable tools.config row.category with
  | false =>
    refine iff_of_false ?_ fun h => absurd h.1 Bool.false_ne_true
    intro ⟨response, h, hentry⟩
    rw [getStructure, hbrowse] at h
    obtain rfl := Except.ok.inj h
    cases side with
    | source => exact List.not_mem_nil hentry
    | sink => exact List.not_mem_nil hentry
  | true =>
    rw [and_iff_right rfl, getStructure, hbrowse, if_pos rfl]
    constructor
    · intro ⟨response, h, hentry⟩
      obtain ⟨sources, hsources, h⟩ := bind_eq_ok.mp h
      obtain ⟨sinks, hsinks, h⟩ := bind_eq_ok.mp h
      obtain rfl := return_eq_ok.mp h
      cases side with
      | source => exact ⟨sources, hsources, hentry⟩
      | sink => exact ⟨sinks, hsinks, hentry⟩
    · intro ⟨entries, h, hentry⟩
      have hreadable := (getAllComponents_spec h).1
      obtain ⟨sources, hsources⟩ : ∃ sources,
          getAllComponents tools db .source none (some [row.category]) false = .ok sources :=
        exists_getAllComponents hreadable
      obtain ⟨sinks, hsinks⟩ : ∃ sinks,
          getAllComponents tools db .sink none (some [row.category]) false = .ok sinks :=
        exists_getAllComponents hreadable
      refine ⟨⟨[], sources, sinks⟩,
        bind_eq_ok.mpr ⟨sources, hsources, bind_eq_ok.mpr ⟨sinks, hsinks, rfl⟩⟩, ?_⟩
      cases side with
      | source => exact Except.ok.inj (h.symm.trans hsources) ▸ hentry
      | sink => exact Except.ok.inj (h.symm.trans hsinks) ▸ hentry

/-- An entry of a component which is not disabled is found by its id exactly if its category is
allowed. -/
theorem foundById_iff (hid : row.id < 2 ^ 128) (hactive : row.state ≠ .disabled) :
    FoundById tools db side entry ↔
      row.state ∈ getAllowedComponentStates tools.config false ∧
        AllowedOn side tools.config row.category := by
  have hreadAs := readAs_of_readComponent hrow htype hread
  obtain ⟨hentryId, hcategory⟩ := entry_of_wrap hwrap
  have htext : uuidOfText tools.numerals entry.id = some row.id := by
    rw [hentryId, hreadAs.id]
    exact uuidOfText_uuidStr hid
  have hallowed : ((side.allowedCategories tools.config).all fun categories =>
      entry.thingNodeId ∈ categories) = true ↔ AllowedOn side tools.config row.category := by
    rw [hcategory, hreadAs.category, AllowedOn]
    cases side.allowedCategories tools.config <;> simp
  unfold FoundById getComponentById
  rw [htext]
  dsimp only
  by_cases hstate : row.state ∈ getAllowedComponentStates tools.config false
  · have hselected : multipleTrafoSelectFiltered db .component none (some [row.id])
        (getAllowedComponentStates tools.config true) = [row] := by
      apply filter_eq_singleton db.ids_unique hrow
      · simpa [htype] using (mem_allowedStates_iff tools.config hactive).mpr hstate
      · intro other _ hother
        simpa using (Bool.and_eq_true_iff.mp hother).2
    have hobtained : getAllComponents tools db side (some [row.id]) none true = .ok [entry] := by
      unfold getAllComponents
      rw [hselected]
      refine bind_eq_ok.mpr ⟨[component], mapM_eq_ok.mpr (.cons hread .nil), ?_⟩
      refine bind_eq_ok.mpr ⟨[some entry], mapM_eq_ok.mpr (.cons hwrap .nil), ?_⟩
      simp [List.reduceOption, pure, Except.pure]
    rw [hobtained, and_iff_right hstate, ← hallowed]
    change (Except.ok (if _ then _ else _) = _) ↔ _
    split
    · rename_i h
      exact iff_of_true rfl h
    · rename_i h
      exact iff_of_false nofun h
  · have hselected : multipleTrafoSelectFiltered db .component none (some [row.id])
        (getAllowedComponentStates tools.config true) = [] := by
      rw [List.eq_nil_iff_forall_not_mem]
      intro other hother
      obtain ⟨hstored, -, hstateOther, -, hids⟩ := mem_multipleTrafoSelectFiltered.mp hother
      have hsame : other.id = row.id := List.mem_singleton.mp (hids _ rfl)
      obtain rfl := KeyedList.eq_of_key_eq db.ids_unique hstored hrow hsame
      exact hstate ((mem_allowedStates_iff tools.config hactive).mp hstateOther)
    have hobtained : getAllComponents tools db side (some [row.id]) none true = .ok [] := by
      unfold getAllComponents
      rw [hselected]
      refine bind_eq_ok.mpr ⟨[], rfl, bind_eq_ok.mpr ⟨[], rfl, ?_⟩⟩
      rw [List.reduceOption_nil, List.mergeSort_nil]
      rfl
    rw [hobtained]
    exact iff_of_false nofun fun h => hstate h.1

/-- A component of an allowed category is accepted in wirings. -/
theorem validTrafo_of_allowed (hstate : row.state ∈ getAllowedComponentStates tools.config false)
    (hallowed : AllowedOn side tools.config row.category) :
    side.validTrafo tools.config component = true := by
  have hreadAs := readAs_of_readComponent hrow htype hread
  have hdraft : component.state ≠ .draft ∨ tools.config.allowDraftComponents = true := by
    rw [hreadAs.state]
    by_contra hnot
    rw [not_or, not_not] at hnot
    rw [hnot.1, getAllowedComponentStates, if_neg hnot.2] at hstate
    exact absurd hstate (by decide)
  have hcommon : allowedByAdapter tools.config (side.allowedCategories tools.config) component =
      true := by
    unfold allowedByAdapter
    rw [hreadAs.type, htype, hreadAs.category]
    unfold AllowedOn at hallowed
    cases hcategories : side.allowedCategories tools.config with
    | none => simpa using hdraft
    | some categories =>
      have hmem := hallowed categories hcategories
      simpa [hmem] using hdraft
  unfold AdapterSide.wrap at hwrap
  split at hwrap
  · rename_i houtputs
    change (allowedByAdapter _ _ _ && decide (_ = 1)) = true
    have hcommon : allowedByAdapter tools.config tools.config.allowedSourceCategories component =
        true := hcommon
    rw [hcommon, houtputs]
    rfl
  · rename_i houtputs
    split at hwrap
    · rename_i hdata
      change (allowedByAdapter _ _ _ && _ && _) = true
      have hcommon : allowedByAdapter tools.config tools.config.allowedSinkCategories component =
          true := hcommon
      rw [hcommon, hdata, houtputs]
      rfl
    · cases hwrap
  · cases hwrap

end Entry

end Read

/-! ## When the endpoints agree -/

section Main

variable [UnicodeData] {V J : Type} [DecidableEq V] [DecidableEq J]

/-- The endpoints agree on a side exactly if the lists of allowed categories are consistent there. -/
theorem endpointsAgree_iff_listsConsistent (tools : ComponentAdapterTools)
    {db : Database V (WiringData J)} (hids : ∀ row ∈ db.revisions, row.id < 2 ^ 128)
    (side : AdapterSide) : EndpointsAgree tools db side ↔ ListsConsistent tools db side := by
  constructor
  · intro h row hrow htype hstate component entry hread hwrap
    have hactive := active_of_mem_allowedStates hstate
    obtain ⟨hshown, hlisted, -⟩ := h row hrow htype hactive component entry hread hwrap
    rw [shownIn_iff hrow htype hread hwrap, listed_iff hrow htype hread hwrap] at hshown
    rw [listed_iff hrow htype hread hwrap, foundById_iff hrow htype hread hwrap (hids row hrow)
      hactive] at hlisted
    simp only [hstate, true_and] at hshown hlisted
    refine ⟨fun hallowed => ?_, fun hnot => ?_⟩
    · exact (hlisted.mpr hallowed).2
    · rw [← not_and_or]
      intro ⟨hother, hreadable⟩
      exact hnot (hshown.mp ⟨Or.inr hother, hreadable⟩).1
  · intro h row hrow htype hactive component entry hread hwrap
    rw [shownIn_iff hrow htype hread hwrap, listed_iff hrow htype hread hwrap,
      foundById_iff hrow htype hread hwrap (hids row hrow) hactive]
    by_cases hstate : row.state ∈ getAllowedComponentStates tools.config false
    · obtain ⟨hreadable, hexcluded⟩ := h row hrow htype hstate component entry hread hwrap
      simp only [hstate, true_and]
      by_cases hallowed : AllowedOn side tools.config row.category
      · have hall := hreadable hallowed
        refine ⟨iff_of_true ⟨Or.inl hallowed, hall.of_allowed hallowed⟩ ⟨hallowed, hall⟩,
          iff_of_true ⟨hallowed, hall⟩ hallowed, fun _ => ?_⟩
        exact validTrafo_of_allowed hrow htype hread hwrap hstate hallowed
      · refine ⟨iff_of_false (fun ⟨hshown, hcategory⟩ => ?_) fun hlisted => hallowed hlisted.1,
          iff_of_false (fun hlisted => hallowed hlisted.1) hallowed,
          fun hlisted => absurd hlisted.1 hallowed⟩
        rcases hexcluded hallowed with hother | hunreadable
        · exact hother (hshown.resolve_left hallowed)
        · exact hunreadable hcategory
    · simp [hstate]

/-- The endpoints agree for sources and for sinks exactly if the lists of allowed categories are
consistent for both. -/
theorem endpointsAgree_iff (tools : ComponentAdapterTools) {db : Database V (WiringData J)}
    (hids : ∀ row ∈ db.revisions, row.id < 2 ^ 128) :
    (EndpointsAgree tools db .source ∧ EndpointsAgree tools db .sink) ↔
      ListsConsistent tools db .source ∧ ListsConsistent tools db .sink :=
  and_congr (endpointsAgree_iff_listsConsistent tools hids .source)
    (endpointsAgree_iff_listsConsistent tools hids .sink)

end Main

/-! ## An empty list for sources and none for sinks -/

/-- A component with one output. -/
def componentOfY : Revision ℤ (WiringData ℤ) :=
  { plainComponent 1 .released "pass\n".toList with
    ioInterface := ⟨[], [⟨2, some ['y'], .float⟩]⟩
    testWiring := .empty
    releaseWiring := none }

/-- A store with this component. -/
def componentOfYDb : Database ℤ (WiringData ℤ) where
  revisions := [componentOfY]
  nestings := []
  ids_unique := List.nodup_singleton _
  nesting_keys_unique := Nesting.nil_keys_nodup
  references_exist := fun _ h => absurd h List.not_mem_nil

/-- Tools for a configuration of the adapter with some lists of categories. -/
def plainAdapterTools (sources sinks : Option (List PyStr)) : ComponentAdapterTools where
  config := ⟨false, sources, sinks⟩
  wirings := plainWiringConfig
  numerals := ⟨fun _ => none, fun _ => false⟩
  lower := id
  uuid4 := fun _ => uuid4Above 1000

/-- The component is read as it is stored. -/
theorem readComponent_componentOfY (sources sinks : Option (List PyStr)) :
    @readComponent asciiOnly ℤ ℤ _ _ (plainAdapterTools sources sinks) componentOfYDb componentOfY =
      .ok componentOfY := by
  have hread : @readRevision asciiOnly ℤ ℤ _ _ plainWiringConfig componentOfYDb
      (fun _ => uuid4Above 1000) 1 = .ok componentOfY := by
    decide +kernel
  exact mapError_eq_ok.mpr hread

/-- The source is shown under its category, but it is not listed, since no category is allowed for
sources. -/
theorem shown_not_listed :
    @ShownIn asciiOnly ℤ ℤ _ _ (plainAdapterTools (some []) none) componentOfYDb .source ['C']
        (componentEntry componentOfY false .float) ∧
      ¬ @Listed asciiOnly ℤ ℤ _ _ (plainAdapterTools (some []) none) componentOfYDb .source
        (componentEntry componentOfY false .float) ∧
      ¬ @EndpointsAgree asciiOnly ℤ ℤ _ _ (plainAdapterTools (some []) none) componentOfYDb
        .source := by
  have hread := readComponent_componentOfY (some []) none
  have hrow : componentOfY ∈ componentOfYDb.revisions := List.mem_singleton_self _
  have hwrap : AdapterSide.source.wrap componentOfY =
      .ok (some (componentEntry componentOfY false .float)) := rfl
  have hshown : @ShownIn asciiOnly ℤ ℤ _ _ (plainAdapterTools (some []) none) componentOfYDb
      .source ['C'] (componentEntry componentOfY false .float) := by
    apply (@shownIn_iff asciiOnly ℤ ℤ _ _ _ _ _ _ _ _ hrow rfl hread hwrap).mpr
    refine ⟨by decide, Or.inr nofun, fun row hrow _ _ _ => ?_⟩
    obtain rfl := List.mem_singleton.mp hrow
    exact ⟨componentOfY, hread⟩
  have hnot : ¬ @Listed asciiOnly ℤ ℤ _ _ (plainAdapterTools (some []) none) componentOfYDb
      .source (componentEntry componentOfY false .float) := by
    rw [@listed_iff asciiOnly ℤ ℤ _ _ _ _ _ _ _ _ hrow rfl hread hwrap]
    intro ⟨_, hallowed, _⟩
    exact List.not_mem_nil (hallowed [] rfl)
  refine ⟨hshown, hnot, fun h => ?_⟩
  exact hnot ((h componentOfY hrow rfl (by decide) _ _ hread hwrap).1.mp hshown)

/-- A component with an input `data` and no outputs, of another category. -/
def componentOfData : Revision ℤ (WiringData ℤ) :=
  { plainComponent 5 .released "pass\n".toList with
    category := ['K']
    ioInterface := ⟨[{ id := 6, name := some "data".toList, dataType := .float, type := .required
                       value := none
                       value_set_only_for_optional_input := InputType.required_without_value }], []⟩
    testWiring := .empty
    releaseWiring := none }

/-- A store with both components. -/
def sourceAndSinkDb : Database ℤ (WiringData ℤ) where
  revisions := [componentOfY, componentOfData]
  nestings := []
  ids_unique := by decide
  nesting_keys_unique := Nesting.nil_keys_nodup
  references_exist := fun _ h => absurd h List.not_mem_nil

/-- Tools for a configuration which allows the category of each component on its side. -/
def sourceAndSinkTools : ComponentAdapterTools := plainAdapterTools (some [['C']]) (some [['K']])

/-- The components are read as they are stored. -/
theorem readComponent_sourceAndSinkDb : ∀ row ∈ sourceAndSinkDb.revisions,
    @readComponent asciiOnly ℤ ℤ _ _ sourceAndSinkTools sourceAndSinkDb row = .ok row := by
  have hread : ∀ row ∈ sourceAndSinkDb.revisions, @readRevision asciiOnly ℤ ℤ _ _
      sourceAndSinkTools.wirings sourceAndSinkDb (fun _ => uuid4Above 1000) row.id = .ok row := by
    decide +kernel
  exact fun row hrow => mapError_eq_ok.mpr (hread row hrow)

/-- Each component is listed on its side, and the endpoints agree. -/
theorem sourceAndSink_agree :
    @Listed asciiOnly ℤ ℤ _ _ sourceAndSinkTools sourceAndSinkDb .source
        (componentEntry componentOfY false .float) ∧
      @Listed asciiOnly ℤ ℤ _ _ sourceAndSinkTools sourceAndSinkDb .sink
        (componentEntry componentOfData true .float) ∧
      @ListsConsistent asciiOnly ℤ ℤ _ _ sourceAndSinkTools sourceAndSinkDb .source ∧
      @ListsConsistent asciiOnly ℤ ℤ _ _ sourceAndSinkTools sourceAndSinkDb .sink ∧
      @EndpointsAgree asciiOnly ℤ ℤ _ _ sourceAndSinkTools sourceAndSinkDb .source ∧
      @EndpointsAgree asciiOnly ℤ ℤ _ _ sourceAndSinkTools sourceAndSinkDb .sink := by
  have hreadable (categories : Option (List PyStr)) :
      @ComponentsReadable asciiOnly ℤ ℤ _ _ sourceAndSinkTools sourceAndSinkDb categories :=
    fun row hrow _ _ _ => ⟨row, readComponent_sourceAndSinkDb row hrow⟩
  have hallowed (side : AdapterSide) : ∀ row ∈ sourceAndSinkDb.revisions,
      ∀ entry, side.wrap row = .ok (some entry) →
        AllowedOn side sourceAndSinkTools.config row.category := by
    intro row hrow entry hwrap categories hcategories
    rcases List.mem_pair.mp hrow with rfl | rfl
    · cases side with
      | source => exact Option.some.inj hcategories ▸ List.mem_singleton_self _
      | sink => exact absurd (Except.ok.inj hwrap) (Option.some_ne_none entry).symm
    · cases side with
      | source => exact absurd (Except.ok.inj hwrap) (Option.some_ne_none entry).symm
      | sink => exact Option.some.inj hcategories ▸ List.mem_singleton_self _
  have hconsistent (side : AdapterSide) :
      @ListsConsistent asciiOnly ℤ ℤ _ _ sourceAndSinkTools sourceAndSinkDb side := by
    intro row hrow _ _ component entry hread hwrap
    obtain rfl := Except.ok.inj ((readComponent_sourceAndSinkDb row hrow).symm.trans hread)
    exact ⟨fun _ => hreadable _, fun hnot => absurd (hallowed side row hrow entry hwrap) hnot⟩
  have hlisted (side : AdapterSide) (row : Revision ℤ (WiringData ℤ))
      (hrow : row ∈ sourceAndSinkDb.revisions) (htype : row.type = .component)
      (hstate : row.state ∈ getAllowedComponentStates sourceAndSinkTools.config false)
      (entry : ComponentAdapterEntry ℤ) (hwrap : side.wrap row = .ok (some entry)) :
      @Listed asciiOnly ℤ ℤ _ _ sourceAndSinkTools sourceAndSinkDb side entry := by
    rw [@listed_iff asciiOnly ℤ ℤ _ _ _ _ _ _ _ _ hrow htype
      (readComponent_sourceAndSinkDb row hrow) hwrap]
    exact ⟨hstate, hallowed side row hrow entry hwrap, hreadable _⟩
  have hagree := (@endpointsAgree_iff asciiOnly ℤ ℤ _ _ sourceAndSinkTools sourceAndSinkDb
    (by decide)).mpr ⟨hconsistent .source, hconsistent .sink⟩
  refine ⟨?_, ?_, hconsistent .source, hconsistent .sink, hagree⟩
  · exact hlisted .source componentOfY (by decide) rfl (by decide) _ rfl
  · exact hlisted .sink componentOfData (by decide) rfl (by decide) _ rfl

end HetidaDesigner
