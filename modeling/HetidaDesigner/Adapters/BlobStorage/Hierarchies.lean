import HetidaDesigner.Adapters.BlobStorage.Sources
import HetidaDesigner.Library.RoseTrees

/-!
# Hierarchies of the blob storage

The classes `StructureThingNode`, `BlobStorageStructureSink` and `HierarchyNode` of
`adapters/blob_storage/models.py`, and the lists of thing nodes, buckets and sinks which are made of
a hierarchy. A missing substructure is treated like an empty one everywhere and is the empty list
here. The fields of sinks which are constant are left out.
-/

namespace HetidaDesigner

open Checks SplitOnce RoseTree

/-! ## Thing nodes -/

/-- Strings accepted as `ThingNodeName`. -/
def thingNodeName (s : PyStr) : Bool :=
  1 ≤ s.length ∧ s.length ≤ 63 ∧ withoutFinalNewline s ≠ [] ∧
    (withoutFinalNewline s).all fun c => c.isAlphanum

/-- An accepted name. -/
abbrev ThingNodeName := {s : PyStr // thingNodeName s = true}

/-- The id of a thing node with a parent, a separator and a name. -/
def thingNodeId (parentId : Option PyStr) (separator : Char) (name : PyStr) : PyStr :=
  (match parentId with
    | none => []
    | some parentId => parentId ++ [separator]) ++
    if separator = '-' then name.map Char.toLower else name

/-- The fields of a thing node. -/
structure ThingNodeData where
  id : PyStr
  parentId : Option PyStr
  name : PyStr
  description : PyStr
  deriving DecidableEq

/-- All validators of the fields. -/
def ThingNodeData.valid (data : ThingNodeData) : Bool :=
  idString data.id ∧ data.parentId.all idString ∧ thingNodeName data.name ∧
    data.id ∈ [thingNodeId data.parentId '-' data.name, thingNodeId data.parentId '/' data.name]

/-- A thing node whose id consists of that of its parent and its name. -/
structure StructureThingNode extends ThingNodeData where
  valid : toThingNodeData.valid = true
  deriving DecidableEq

/-- The thing node with given fields. -/
def StructureThingNode.create (data : ThingNodeData) : Except BlobError StructureThingNode :=
  if h : data.valid = true then .ok ⟨data, h⟩ else .error .validation

/-! ## Sinks -/

/-- `GENERIC_SINK_ID_SUFFIX`, behind the separator of identifiers. -/
def genericSinkIdSuffix : PyStr := "_generic_sink".toList

/-- `GENERIC_SINK_NAME_SUFFIX` -/
def genericSinkNameSuffix : PyStr := "Next Object".toList

/-- The fields of a sink. -/
structure SinkData where
  id : PyStr
  thingNodeId : PyStr
  name : PyStr
  path : PyStr
  metadataKey : PyStr
  deriving DecidableEq

/-- The validator `id_matches_scheme`. -/
def sinkIdMatchesScheme (id : PyStr) : Bool :=
  (getStructureBucketAndObjectKeyPrefixFromId id).isOk ∧ genericSinkIdSuffix.isSuffixOf id

/-- The validator `name_matches_id`. -/
def sinkNameMatchesId (id name : PyStr) : Bool :=
  match rsplitOnce '/' id with
  | none => false
  | some (_, fileStringFromId) =>
    match SplitFirst.splitAll hierarchyEndNodeNameSeparator name with
    | [thingNodeName, sinkNameEnd] =>
      (SplitOnce.splitMax '_' 1 fileStringFromId).head? = some thingNodeName ∧
        sinkNameEnd = genericSinkNameSuffix
    | _ => false

/-- All validators of the fields. -/
def SinkData.valid (data : SinkData) : Bool :=
  idString data.id ∧ sinkIdMatchesScheme data.id ∧ idString data.thingNodeId ∧
    (SplitFirst.rsplitMax genericSinkIdSuffix 1 data.id).head? = some data.thingNodeId ∧
    sinkNameMatchesId data.id data.name ∧ data.path = data.thingNodeId ∧
    data.metadataKey = data.name

/-- A sink whose fields fit together. -/
structure BlobStorageStructureSink extends SinkData where
  valid : toSinkData.valid = true
  deriving DecidableEq

/-- The fields of the sink on a thing node. -/
def sinkData (thingNode : StructureThingNode) : SinkData where
  id := thingNode.id ++ genericSinkIdSuffix
  thingNodeId := thingNode.id
  name := thingNode.name ++ hierarchyEndNodeNameSeparator ++ genericSinkNameSuffix
  path := thingNode.id
  metadataKey := thingNode.name ++ hierarchyEndNodeNameSeparator ++ genericSinkNameSuffix

/-- `from_thing_node` -/
def BlobStorageStructureSink.fromThingNode (thingNode : StructureThingNode) :
    Except BlobError BlobStorageStructureSink :=
  if h : (sinkData thingNode).valid = true then .ok ⟨sinkData thingNode, h⟩
  else .error .validation

/-! ## Hierarchies -/

/-- The fields of a node of the hierarchy but its substructure. -/
structure HierarchyLevel where
  name : ThingNodeName
  description : PyStr
  belowStructureDefinesObjectKey : Bool

/-- A node of the hierarchy with its substructure. -/
abbrev HierarchyNode := RoseTree HierarchyLevel

/-- The lists which are filled from a hierarchy. -/
structure StructureObjects where
  thingNodes : List StructureThingNode
  buckets : List StructureBucket
  sinks : List BlobStorageStructureSink

/-- `to_thing_node` -/
def toThingNode (level : HierarchyLevel) (parentId : Option PyStr) (separator : Char) :
    Except BlobError StructureThingNode :=
  StructureThingNode.create
    ⟨thingNodeId parentId separator level.name, parentId, level.name, level.description⟩

/-- The bucket of a node below which the structure defines the keys of objects. -/
def appendBucket (objects : StructureObjects) (id : PyStr)
    (belowStructureDefinesObjectKey partOfBucketName : Bool) : Except BlobError StructureObjects :=
  if belowStructureDefinesObjectKey then do
    require partOfBucketName .value
    match StructureBucket.create id with
    | .error _ => .error .value
    | .ok bucket => return { objects with buckets := objects.buckets ++ [bucket] }
  else return objects

mutual

/-- `create_structure` -/
def createStructure (objects : StructureObjects) (parentId : Option PyStr)
    (partOfBucketName : Bool) : HierarchyNode → Except BlobError StructureObjects
  | .node level substructure => do
    require (!(partOfBucketName && substructure.isEmpty)) .value
    let thingNode ← toThingNode level parentId (if partOfBucketName then '-' else '/')
    let objects := { objects with thingNodes := objects.thingNodes ++ [thingNode] }
    let belowStructureDefinesObjectKey := level.belowStructureDefinesObjectKey ||
      (partOfBucketName && depth (.node level substructure) = 2)
    let objects ←
      appendBucket objects thingNode.id belowStructureDefinesObjectKey partOfBucketName
    if substructure.isEmpty then do
      let sink ← BlobStorageStructureSink.fromThingNode thingNode
      return { objects with sinks := objects.sinks ++ [sink] }
    else
      createSubstructure objects (some thingNode.id)
        (if belowStructureDefinesObjectKey then false else partOfBucketName) substructure

/-- The loop over a substructure. -/
def createSubstructure (objects : StructureObjects) (parentId : Option PyStr)
    (partOfBucketName : Bool) : List HierarchyNode → Except BlobError StructureObjects
  | [] => return objects
  | hierarchyNode :: rest => do
    let objects ← createStructure objects parentId partOfBucketName hierarchyNode
    createSubstructure objects parentId partOfBucketName rest

end

/-- `create_blob_storage_adapter_structure_objects_from_hierarchy` -/
def createBlobStorageAdapterStructureObjectsFromHierarchy (hierarchy : List HierarchyNode) :
    Except BlobError StructureObjects := do
  let objects ← createSubstructure ⟨[], [], []⟩ none true hierarchy
  require objects.buckets.Nodup .value
  require (objects.thingNodes.map fun thingNode => thingNode.id).Nodup .value
  return objects

/-! ## One node -/

section Steps

variable {objects result : StructureObjects} {parentId : Option PyStr} {partOfBucketName : Bool}
  {thingNode : StructureThingNode}

/-- The thing node of a level has its name and description, and the id of its parent. -/
theorem toThingNode_eq_ok {level : HierarchyLevel} {separator : Char}
    (h : toThingNode level parentId separator = .ok thingNode) :
    thingNode.toThingNodeData =
      ⟨thingNodeId parentId separator level.name, parentId, level.name, level.description⟩ := by
  unfold toThingNode StructureThingNode.create at h
  split at h
  · rw [← Except.ok.inj h]
  · cases h

/-- A sink is made on its thing node. -/
theorem thingNodeId_of_fromThingNode {sink : BlobStorageStructureSink}
    (h : BlobStorageStructureSink.fromThingNode thingNode = .ok sink) :
    sink.thingNodeId = thingNode.id := by
  unfold BlobStorageStructureSink.fromThingNode at h
  split at h
  · rw [← Except.ok.inj h]
    rfl
  · cases h

/-- A created bucket has the given name. -/
theorem name_of_create {name : PyStr} {bucket : StructureBucket}
    (h : StructureBucket.create name = .ok bucket) : bucket.name = name := by
  unfold StructureBucket.create at h
  split at h
  · rw [← Except.ok.inj h]
  · cases h

/-- Only buckets are appended: one with the given name if the structure below defines the keys, which
is refused outside of names of buckets. -/
theorem appendBucket_eq_ok {id : PyStr} {below : Bool}
    (h : appendBucket objects id below partOfBucketName = .ok result) :
    result.thingNodes = objects.thingNodes ∧ result.sinks = objects.sinks ∧
      objects.buckets ⊆ result.buckets ∧
      (below = true → partOfBucketName = true ∧ ∃ bucket ∈ result.buckets, bucket.name = id) := by
  unfold appendBucket at h
  split at h
  · rename_i hbelow
    obtain ⟨hpart, h⟩ := require_bind_eq_ok.mp h
    split at h
    · cases h
    · rename_i bucket hbucket
      rw [← return_eq_ok.mp h]
      exact ⟨rfl, rfl, List.subset_append_left _ _, fun _ =>
        ⟨hpart, bucket, List.mem_append_right _ List.mem_cons_self, name_of_create hbucket⟩⟩
  · rename_i hbelow
    rw [← return_eq_ok.mp h]
    exact ⟨rfl, rfl, List.Subset.refl _, fun htrue => absurd htrue hbelow⟩

/-- What happens at one node: its thing node is appended, then perhaps a bucket, and then a sink or
what is made of its substructure. -/
theorem createStructure_eq_ok {level : HierarchyLevel} {substructure : List HierarchyNode}
    (h : createStructure objects parentId partOfBucketName (.node level substructure) =
      .ok result) :
    ∃ thingNode filled below,
      toThingNode level parentId (if partOfBucketName then '-' else '/') = .ok thingNode ∧
      appendBucket { objects with thingNodes := objects.thingNodes ++ [thingNode] } thingNode.id
        below partOfBucketName = .ok filled ∧
      ((substructure = [] ∧ partOfBucketName = false ∧
          ∃ sink, BlobStorageStructureSink.fromThingNode thingNode = .ok sink ∧
            result = { filled with sinks := filled.sinks ++ [sink] }) ∨
        (substructure ≠ [] ∧ createSubstructure filled (some thingNode.id)
          (if below then false else partOfBucketName) substructure = .ok result)) := by
  rw [createStructure, require_bind_eq_ok] at h
  obtain ⟨hpart, h⟩ := h
  obtain ⟨thingNode, hnode, h⟩ := bind_eq_ok.mp h
  obtain ⟨filled, hbucket, h⟩ := bind_eq_ok.mp h
  refine ⟨thingNode, filled, _, hnode, hbucket, ?_⟩
  cases substructure with
  | nil =>
    obtain ⟨sink, hsink, h⟩ := bind_eq_ok.mp h
    rw [List.isEmpty_nil, Bool.and_true, Bool.not_eq_true'] at hpart
    exact Or.inl ⟨rfl, hpart, sink, hsink, (return_eq_ok.mp h).symm⟩
  | cons child children => exact Or.inr ⟨List.cons_ne_nil _ _, h⟩

end Steps

/-! ## Thing nodes and sinks -/

/-- The thing nodes of a forest of the shape of a hierarchy are appended, and a sink on each of its
leaves. -/
structure Appended (parent : Option StructureThingNode) (hierarchy : List HierarchyNode)
    (objects result : StructureObjects) (forest : List (RoseTree StructureThingNode)) : Prop where
  shape : mapForest (fun thingNode => (thingNode.name, thingNode.description)) forest =
    mapForest (fun level => (level.name.val, level.description)) hierarchy
  parents : LinkedForest (fun parent thingNode => thingNode.parentId =
    parent.map fun parent => parent.id) parent forest
  thingNodes : result.thingNodes = objects.thingNodes ++ labelsForest forest
  sinks : result.sinks.map (fun sink => sink.thingNodeId) =
    objects.sinks.map (fun sink => sink.thingNodeId) ++
      (leavesForest forest).map fun thingNode => thingNode.id

mutual

/-- A node appends its tree. -/
theorem createStructure_appended {objects result : StructureObjects} {partOfBucketName : Bool}
    (parent : Option StructureThingNode) : ∀ {hierarchyNode : HierarchyNode},
    createStructure objects (parent.map fun parent => parent.id) partOfBucketName hierarchyNode =
      .ok result → ∃ tree, Appended parent [hierarchyNode] objects result [tree]
  | .node level substructure, h => by
    obtain ⟨thingNode, filled, below, hnode, hbucket, hrest⟩ := createStructure_eq_ok h
    obtain ⟨hnodes, hsinks, -, -⟩ := appendBucket_eq_ok hbucket
    have hdata := toThingNode_eq_ok hnode
    have hname : thingNode.name = level.name := congrArg ThingNodeData.name hdata
    have hdescription : thingNode.description = level.description :=
      congrArg ThingNodeData.description hdata
    have hparent : thingNode.parentId = parent.map fun parent => parent.id :=
      congrArg ThingNodeData.parentId hdata
    rcases hrest with ⟨rfl, -, sink, hsink, rfl⟩ | ⟨hne, hrest⟩
    · refine ⟨.node thingNode [], ?_, ⟨⟨hparent, trivial⟩, trivial⟩, hnodes, ?_⟩
      · simp [mapForest, map, hname, hdescription]
      · simp [leavesForest, leaves, hsinks, thingNodeId_of_fromThingNode hsink]
    · obtain ⟨forest, hforest⟩ := createSubstructure_appended (some thingNode) hrest
      have hforest_ne : forest ≠ [] := by
        intro hnil
        have hshape := hforest.shape
        rw [hnil, mapForest] at hshape
        exact hne (mapForest_eq_nil_iff.mp hshape.symm)
      refine ⟨.node thingNode forest, ?_, ⟨⟨hparent, hforest.parents⟩, trivial⟩, ?_, ?_⟩
      · simp [mapForest, map, hname, hdescription, hforest.shape]
      · simp [hforest.thingNodes, hnodes, labelsForest, labels]
      · simp [hforest.sinks, hsinks, leavesForest, leaves_node hforest_ne]

/-- A substructure appends its forest. -/
theorem createSubstructure_appended {objects result : StructureObjects} {partOfBucketName : Bool}
    (parent : Option StructureThingNode) : ∀ {hierarchy : List HierarchyNode},
    createSubstructure objects (parent.map fun parent => parent.id) partOfBucketName hierarchy =
      .ok result → ∃ forest, Appended parent hierarchy objects result forest
  | [], h => by
    rw [createSubstructure] at h
    obtain rfl := return_eq_ok.mp h
    exact ⟨[], rfl, trivial, by simp [labelsForest], by simp [leavesForest]⟩
  | hierarchyNode :: rest, h => by
    rw [createSubstructure] at h
    obtain ⟨between, hfirst, hrest⟩ := bind_eq_ok.mp h
    obtain ⟨tree, htree⟩ := createStructure_appended parent hfirst
    obtain ⟨forest, hforest⟩ := createSubstructure_appended parent hrest
    refine ⟨tree :: forest, ?_, ⟨htree.parents.1, hforest.parents⟩, ?_, ?_⟩
    · have hshape := htree.shape
      simp only [mapForest, List.cons.injEq, and_true] at hshape
      simp [mapForest, hshape, hforest.shape]
    · simp [hforest.thingNodes, htree.thingNodes, labelsForest]
    · simp [hforest.sinks, htree.sinks, leavesForest]

end

/-! ## Buckets of sinks -/

/-- An id starts with the name of a bucket and the separator. -/
def StartsWith (bucket : StructureBucket) (id : PyStr) : Prop := bucket.name ++ ['/'] <+: id

/-- Every sink lies in a bucket. -/
def SinksInBuckets (objects : StructureObjects) : Prop :=
  ∀ sink ∈ objects.sinks, ∃ bucket ∈ objects.buckets, StartsWith bucket sink.thingNodeId

/-- What is below a parent lies in a bucket. -/
def BelowBucket (objects : StructureObjects) (parentId : Option PyStr) : Prop :=
  ∃ id, parentId = some id ∧ ∃ bucket ∈ objects.buckets, StartsWith bucket (id ++ ['/'])

/-- What lies in a bucket stays there if further objects are made. -/
theorem BelowBucket.mono {objects result : StructureObjects} {parentId : Option PyStr}
    (h : BelowBucket objects parentId) (hsubset : objects.buckets ⊆ result.buckets) :
    BelowBucket result parentId := by
  obtain ⟨id, hid, bucket, hbucket, hstart⟩ := h
  exact ⟨id, hid, bucket, hsubset hbucket, hstart⟩

/-- A thing node below a parent in a bucket lies there, too. -/
theorem startsWith_thingNodeId {bucket : StructureBucket} {id name : PyStr}
    (h : StartsWith bucket (id ++ ['/'])) :
    StartsWith bucket (thingNodeId (some id) '/' name) :=
  h.trans (List.prefix_append _ _)

mutual

/-- A node in a bucket, or of whose name buckets are made, keeps all sinks in buckets. -/
theorem createStructure_inBuckets {objects result : StructureObjects} {parentId : Option PyStr}
    {partOfBucketName : Bool} (hsinks : SinksInBuckets objects)
    (hbelow : partOfBucketName = false → BelowBucket objects parentId) :
    ∀ {hierarchyNode : HierarchyNode},
      createStructure objects parentId partOfBucketName hierarchyNode = .ok result →
      SinksInBuckets result ∧ objects.buckets ⊆ result.buckets
  | .node level substructure, h => by
    obtain ⟨thingNode, filled, below, hnode, hbucket, hrest⟩ := createStructure_eq_ok h
    obtain ⟨-, hfilled, hsubset, hnew⟩ := appendBucket_eq_ok hbucket
    have hid : thingNode.id = _ := congrArg ThingNodeData.id (toThingNode_eq_ok hnode)
    have hkept : SinksInBuckets filled := by
      intro sink hsink
      rw [hfilled] at hsink
      obtain ⟨bucket, hmem, hstart⟩ := hsinks sink hsink
      exact ⟨bucket, hsubset hmem, hstart⟩
    -- outside of names of buckets the thing node lies in the bucket of its parent
    have hinside : partOfBucketName = false →
        ∃ bucket ∈ filled.buckets, StartsWith bucket thingNode.id := by
      intro hpart
      obtain ⟨id, hparent, bucket, hmem, hstart⟩ := hbelow hpart
      refine ⟨bucket, hsubset hmem, ?_⟩
      rw [hid, hparent, hpart]
      exact startsWith_thingNodeId hstart
    rcases hrest with ⟨-, hpart, sink, hsink, rfl⟩ | ⟨-, hrest⟩
    · refine ⟨fun other hother => ?_, hsubset⟩
      rcases List.mem_append.mp hother with hother | hother
      · exact hkept other hother
      · rw [List.mem_singleton.mp hother, thingNodeId_of_fromThingNode hsink]
        exact hinside hpart
    · have hbelow' : (if below then false else partOfBucketName) = false →
          BelowBucket filled (some thingNode.id) := by
        intro hpart
        cases below with
        | true =>
          obtain ⟨-, bucket, hmem, hname⟩ := hnew rfl
          exact ⟨_, rfl, bucket, hmem, by rw [StartsWith, hname]⟩
        | false =>
          obtain ⟨bucket, hmem, hstart⟩ := hinside hpart
          exact ⟨_, rfl, bucket, hmem, hstart.trans (List.prefix_append _ _)⟩
      obtain ⟨hresult, hsubset'⟩ := createSubstructure_inBuckets hkept hbelow' hrest
      exact ⟨hresult, List.Subset.trans hsubset hsubset'⟩

/-- A substructure keeps all sinks in buckets. -/
theorem createSubstructure_inBuckets {objects result : StructureObjects} {parentId : Option PyStr}
    {partOfBucketName : Bool} (hsinks : SinksInBuckets objects)
    (hbelow : partOfBucketName = false → BelowBucket objects parentId) :
    ∀ {hierarchy : List HierarchyNode},
      createSubstructure objects parentId partOfBucketName hierarchy = .ok result →
      SinksInBuckets result ∧ objects.buckets ⊆ result.buckets
  | [], h => by
    rw [createSubstructure] at h
    obtain rfl := return_eq_ok.mp h
    exact ⟨hsinks, List.Subset.refl _⟩
  | hierarchyNode :: rest, h => by
    rw [createSubstructure] at h
    obtain ⟨between, hfirst, hrest⟩ := bind_eq_ok.mp h
    obtain ⟨hbetween, hsubset⟩ := createStructure_inBuckets hsinks hbelow hfirst
    obtain ⟨hresult, hsubset'⟩ := createSubstructure_inBuckets hbetween
      (fun hpart => (hbelow hpart).mono hsubset) hrest
    exact ⟨hresult, List.Subset.trans hsubset hsubset'⟩

end

/-- No name of a bucket has the separator of directories. -/
theorem StructureBucket.slash_notMem (bucket : StructureBucket) : '/' ∉ bucket.name := by
  intro hmem
  obtain ⟨-, -, -, hall⟩ := of_decide_eq_true bucket.name_valid
  have hcore : '/' ∈ withoutFinalNewline bucket.name := by
    unfold withoutFinalNewline
    split
    · rename_i hlast
      have hname := List.dropLast_append_getLast? _ hlast
      rw [← hname] at hmem
      rcases List.mem_append.mp hmem with hmem | hmem
      · exact hmem
      · exact absurd (List.mem_singleton.mp hmem) (by decide)
    · exact hmem
  exact absurd (List.all_eq_true.mp hall _ hcore) (by decide)

/-- An id starts with the name of one bucket only. -/
theorem eq_of_startsWith {first second : StructureBucket} {id : PyStr}
    (hfirst : StartsWith first id) (hsecond : StartsWith second id) : first = second := by
  obtain ⟨rest, hrest⟩ := hfirst
  obtain ⟨rest', hrest'⟩ := hsecond
  rw [List.append_assoc, List.singleton_append] at hrest hrest'
  have hsplit := splitOnce_eq_some_iff.mpr ⟨hrest.symm, first.slash_notMem⟩
  rw [splitOnce_eq_some_iff.mpr ⟨hrest'.symm, second.slash_notMem⟩] at hsplit
  have hname : second.name = first.name := congrArg Prod.fst (Option.some.inj hsplit)
  cases first
  cases second
  cases hname
  rfl

/-! ## The objects of a hierarchy -/

/-- A hierarchy is flattened without loss: there is one thing node for each of its nodes, with an
id of its own and the id of its parent, one sink on each leaf, and buckets of which exactly one
contains each sink. -/
structure FlattenedWithoutLoss (hierarchy : List HierarchyNode) (objects : StructureObjects) :
    Prop where
  flattened : ∃ forest, Appended none hierarchy ⟨[], [], []⟩ objects forest
  thingNodes_nodup : (objects.thingNodes.map fun thingNode => thingNode.id).Nodup
  buckets_nodup : objects.buckets.Nodup
  bucket_of_sink : ∀ sink ∈ objects.sinks,
    ∃! bucket, bucket ∈ objects.buckets ∧ StartsWith bucket sink.thingNodeId

/-- The objects of a hierarchy are made without loss, if they are made at all. -/
theorem flattenedWithoutLoss_of_hierarchy {hierarchy : List HierarchyNode}
    {objects : StructureObjects}
    (h : createBlobStorageAdapterStructureObjectsFromHierarchy hierarchy = .ok objects) :
    FlattenedWithoutLoss hierarchy objects := by
  obtain ⟨created, hcreated, h⟩ := bind_eq_ok.mp h
  obtain ⟨hbuckets, h⟩ := require_bind_eq_ok.mp h
  obtain ⟨hnodes, h⟩ := require_bind_eq_ok.mp h
  obtain rfl := return_eq_ok.mp h
  obtain ⟨hinside, -⟩ := createSubstructure_inBuckets
    (fun sink hsink => absurd hsink List.not_mem_nil) (fun hpart => absurd hpart (by decide))
    hcreated
  refine ⟨createSubstructure_appended none hcreated, of_decide_eq_true hnodes,
    of_decide_eq_true hbuckets, fun sink hsink => ?_⟩
  obtain ⟨bucket, hmem, hstart⟩ := hinside sink hsink
  exact ⟨bucket, ⟨hmem, hstart⟩, fun other hother => eq_of_startsWith hother.2 hstart⟩

/-- A plant with a pump, below which there are two kinds of objects, and a tank of its own. -/
def plantHierarchy : List HierarchyNode :=
  [.node ⟨⟨"Plant".toList, by decide⟩, [], false⟩
    [.node ⟨⟨"Pump".toList, by decide⟩, [], true⟩
      [.node ⟨⟨"Models".toList, by decide⟩, [], false⟩
        [.node ⟨⟨"Best".toList, by decide⟩, [], false⟩ []],
        .node ⟨⟨"Data".toList, by decide⟩, [], false⟩ []],
      .node ⟨⟨"Tank".toList, by decide⟩, [], false⟩
        [.node ⟨⟨"Data".toList, by decide⟩, [], false⟩ []]]]

/-- The hierarchy of the plant is flattened without loss. -/
theorem plantHierarchy_flattened :
    ∃ objects, createBlobStorageAdapterStructureObjectsFromHierarchy plantHierarchy =
      .ok objects ∧ objects.thingNodes.length = 7 ∧
        FlattenedWithoutLoss plantHierarchy objects := by
  have hok : (createBlobStorageAdapterStructureObjectsFromHierarchy plantHierarchy).map
      (fun objects => objects.thingNodes.length) = .ok 7 := by decide +kernel
  obtain ⟨objects, h, hlength⟩ := map_eq_ok.mp hok
  exact ⟨objects, h, hlength, flattenedWithoutLoss_of_hierarchy h⟩

end HetidaDesigner
