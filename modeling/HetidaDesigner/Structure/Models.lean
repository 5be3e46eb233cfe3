import HetidaDesigner.Library.Checks
import HetidaDesigner.Library.LastEntry
import HetidaDesigner.Models.Io

/-!
# Structures

The data of `structure/models.py` and the validators of `CompleteStructure`, in the order in
which pydantic runs them. Strings which a model checks not to be empty carry that as a field.
Values of filters and metadata are of arbitrary type, and dictionaries are lists of entries.

The validators look thing nodes up by their external id alone, although an external id is unique
only together with a stakeholder key. The loops over the hierarchy get a number of rounds; which
number suffices is proved where their results are.
-/

namespace HetidaDesigner

open Checks LastEntry

/-- Data types of values from external systems. -/
inductive ValueDataType
  | int | float | numeric | string | boolean | any
  deriving DecidableEq, Repr

/-- Types of sources and sinks: the general type and, where there is one, that of the values. -/
inductive ExternalType
  | metadata (values : ValueDataType)
  | timeseries (values : ValueDataType)
  | series (values : ValueDataType)
  | multitsframe
  | dataframe
  | plotlyjson
  deriving DecidableEq, Repr

/-- A filter which a source or sink passes through; all filters are of type `free_text`. -/
structure Filter where
  name : PyStr
  internalName : PyStr
  required : Bool
  deriving DecidableEq, Repr

/-- The fields all elements of a structure have; none of them is empty. -/
structure StructureServiceCommonFields where
  externalId : PyStr
  stakeholderKey : PyStr
  name : PyStr
  external_id_not_empty : externalId ≠ []
  stakeholder_key_not_empty : stakeholderKey ≠ []
  name_not_empty : name ≠ []
  deriving DecidableEq

/-- The pair which identifies an element among those of its kind. -/
def StructureServiceCommonFields.key (element : StructureServiceCommonFields) : PyStr × PyStr :=
  (element.stakeholderKey, element.externalId)

/-- An element type. -/
structure StructureServiceElementType extends StructureServiceCommonFields where
  id : UUID
  description : Option PyStr
  deriving DecidableEq

/-- A thing node; the element type id is a placeholder until the node is stored. -/
structure StructureServiceThingNode (J : Type) extends StructureServiceCommonFields where
  id : UUID
  description : PyStr
  parentNodeId : Option UUID
  parentExternalNodeId : Option PyStr
  elementTypeId : UUID
  elementTypeExternalId : PyStr
  metaData : Option (List (PyStr × J))
  deriving DecidableEq

/-- A source or a sink. Their models differ in the name of the field `source_id` or `sink_id`,
which is `referencedId` here. -/
structure SourceOrSink (J : Type) extends StructureServiceCommonFields where
  id : UUID
  type : ExternalType
  visible : Bool
  displayPath : PyStr
  presetFilters : List (PyStr × J)
  passthroughFilters : Option (List Filter)
  adapterKey : PyStr
  referencedId : PyStr
  refKey : Option PyStr
  refId : PyStr
  metaData : Option (List (PyStr × J))
  thingNodeExternalIds : Option (List PyStr)
  deriving DecidableEq

/-- A source of a structure. -/
abbrev StructureServiceSource := SourceOrSink

/-- A sink of a structure. -/
abbrev StructureServiceSink := SourceOrSink

/-- The elements of a structure. -/
structure CompleteStructure (J : Type) where
  elementTypes : List StructureServiceElementType
  thingNodes : List (StructureServiceThingNode J)
  sources : List (StructureServiceSource J)
  sinks : List (StructureServiceSink J)

/-- The lists of a structure, as error messages name them. -/
inductive StructureList
  | elementTypes | thingNodes | sources | sinks
  deriving DecidableEq, Repr

/-- Reasons for rejecting a structure. -/
inductive StructureError
  | noElementTypes
  | invalidParent (nodeName parentExternalId : PyStr)
  | duplicateKey (elements : StructureList) (key : PyStr × PyStr)
  | duplicateThingNode (elements : StructureList) (externalId thingNodeExternalId : PyStr)
  | typeError
  | inconsistentStakeholderKey (externalId expected found : PyStr)
  | circularReference (externalId : PyStr)
  | nonExistingThingNode (elements : StructureList) (externalId thingNodeExternalId : PyStr)
  deriving DecidableEq, Repr

/-- The first entry of a list which occurs before; `seen` is what has been read already. -/
def firstDuplicate {A : Type} [DecidableEq A] : List A → List A → Option A
  | _, [] => none
  | seen, a :: rest => if a ∈ seen then some a else firstDuplicate (a :: seen) rest

section Validators

variable {J : Type}

/-- The validator `validate_root_nodes_parent_ids_are_none`. -/
def validateRootNodesParentIdsAreNone (nodes : List (StructureServiceThingNode J)) :
    Except StructureError Unit :=
  nodes.forM fun node =>
    match node.parentExternalNodeId with
    | none => .ok ()
    | some parentExtId =>
      require (nodes.any fun other => other.externalId = parentExtId)
        (.invalidParent node.name parentExtId)

/-- A list without two elements of one key; part of the next validator. -/
def checkKeys (elements : StructureList) (keys : List (PyStr × PyStr)) :
    Except StructureError Unit :=
  match firstDuplicate [] keys with
  | none => .ok ()
  | some key => .error (.duplicateKey elements key)

/-- The validator `check_for_duplicate_key_and_id_pairs`. -/
def checkForDuplicateKeyAndIdPairs (completeStructure : CompleteStructure J) :
    Except StructureError Unit := do
  checkKeys .elementTypes (completeStructure.elementTypes.map fun element => element.key)
  checkKeys .thingNodes (completeStructure.thingNodes.map fun element => element.key)
  checkKeys .sources (completeStructure.sources.map fun element => element.key)
  checkKeys .sinks (completeStructure.sinks.map fun element => element.key)

/-- Sources or sinks which list no thing node twice; a missing list cannot be iterated over. -/
def checkThingNodeExternalIds (elements : StructureList) (sourcesOrSinks : List (SourceOrSink J)) :
    Except StructureError Unit :=
  sourcesOrSinks.forM fun element =>
    match element.thingNodeExternalIds with
    | none => .error .typeError
    | some externalIds =>
      match firstDuplicate [] externalIds with
      | none => .ok ()
      | some parentId => .error (.duplicateThingNode elements element.externalId parentId)

/-- The validator `check_for_duplicate_ids_in_thing_node_external_ids`. -/
def checkForDuplicateIdsInThingNodeExternalIds (completeStructure : CompleteStructure J) :
    Except StructureError Unit := do
  checkThingNodeExternalIds .sources completeStructure.sources
  checkThingNodeExternalIds .sinks completeStructure.sinks

/-- The nodes whose parent has an external id, whoever the stakeholder is. -/
def childNodes (nodes : List (StructureServiceThingNode J)) (externalId : PyStr) :
    List (StructureServiceThingNode J) :=
  nodes.filter fun node => node.parentExternalNodeId = some externalId

/-- The loop of the next validator below one root. The end of the list is the top of the stack
in the source; here the stack starts with its top. -/
def checkHierarchy (nodes : List (StructureServiceThingNode J)) (expected : PyStr) :
    ℕ → List PyStr → List (StructureServiceThingNode J) → Except StructureError Unit
  | _, _, [] => .ok ()
  | 0, _, _ :: _ => .ok ()
  | rounds + 1, visited, current :: stack =>
    if current.externalId ∈ visited then checkHierarchy nodes expected rounds visited stack
    else if current.stakeholderKey ≠ expected then
      .error (.inconsistentStakeholderKey current.externalId expected current.stakeholderKey)
    else
      checkHierarchy nodes expected rounds (current.externalId :: visited)
        ((childNodes nodes current.externalId).reverse ++ stack)

/-- The nodes without parent. -/
def rootNodes (nodes : List (StructureServiceThingNode J)) : List (StructureServiceThingNode J) :=
  nodes.filter fun node => node.parentExternalNodeId = none

/-- The validator `check_stakeholder_key_consistency`. A node is put on the stack when its parent
is visited, hence at most once, and each round takes one from it. -/
def checkStakeholderKeyConsistency (nodes : List (StructureServiceThingNode J)) :
    Except StructureError Unit :=
  (rootNodes nodes).forM fun root =>
    checkHierarchy nodes root.stakeholderKey (nodes.length + 1) [] [root]

/-- The dictionary `nodes_by_external_id`. -/
def nodesByExternalId (nodes : List (StructureServiceThingNode J)) (externalId : PyStr) :
    Option (StructureServiceThingNode J) :=
  lastEntry (fun node => node.externalId) nodes externalId

/-- The function `visit`, which follows parents as long as no external id comes up again. -/
def visitParents (nodes : List (StructureServiceThingNode J)) :
    ℕ → List PyStr → StructureServiceThingNode J → Except StructureError Unit
  | 0, _, _ => .ok ()
  | rounds + 1, visited, node =>
    if node.externalId ∈ visited then .error (.circularReference node.externalId)
    else
      match node.parentExternalNodeId with
      | none => .ok ()
      | some parentExternalId =>
        if parentExternalId = [] then .ok ()
        else
          match nodesByExternalId nodes parentExternalId with
          | none => .ok ()
          | some parent => visitParents nodes rounds (node.externalId :: visited) parent

/-- The validator `check_for_circular_reference`. The set of visited nodes is empty again after
each visit; it holds external ids of nodes, hence no more than there are nodes. -/
def checkForCircularReference (nodes : List (StructureServiceThingNode J)) :
    Except StructureError Unit :=
  nodes.forM fun node => visitParents nodes (nodes.length + 1) [] node

/-- Sources or sinks which list only external ids of thing nodes. -/
def checkReferences (elements : StructureList) (nodes : List (StructureServiceThingNode J))
    (sourcesOrSinks : List (SourceOrSink J)) : Except StructureError Unit :=
  sourcesOrSinks.forM fun element =>
    match element.thingNodeExternalIds with
    | none => .error .typeError
    | some externalIds =>
      externalIds.forM fun tnId =>
        require (nodes.any fun node => node.externalId = tnId)
          (.nonExistingThingNode elements element.externalId tnId)

/-- The validator `validate_source_sink_references`. -/
def validateSourceSinkReferences (completeStructure : CompleteStructure J) :
    Except StructureError Unit := do
  checkReferences .sources completeStructure.thingNodes completeStructure.sources
  checkReferences .sinks completeStructure.thingNodes completeStructure.sinks

/-- Validation of a structure, which leaves the data as it is. -/
def CompleteStructure.validate (completeStructure : CompleteStructure J) :
    Except StructureError Unit := do
  require (completeStructure.elementTypes ≠ []) .noElementTypes
  validateRootNodesParentIdsAreNone completeStructure.thingNodes
  checkForDuplicateKeyAndIdPairs completeStructure
  checkForDuplicateIdsInThingNodeExternalIds completeStructure
  checkStakeholderKeyConsistency completeStructure.thingNodes
  checkForCircularReference completeStructure.thingNodes
  validateSourceSinkReferences completeStructure

end Validators

end HetidaDesigner
