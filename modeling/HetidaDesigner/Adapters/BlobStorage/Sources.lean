import HetidaDesigner.Adapters.BlobStorage.ObjectKeys
import HetidaDesigner.Library.SplitFirst

/-!
# Sources of the blob storage

The class `BlobStorageStructureSource` of `adapters/blob_storage/models.py` with its validators, and
how the bucket and the key of an object are found again from the id and the metadata key of its
source. The fields which are constant are left out. The time of a key is in UTC, so converting it to
UTC changes nothing.
-/

namespace HetidaDesigner

open Checks IsoFormat SplitOnce

/-- `HIERARCHY_END_NODE_NAME_SEPARATOR` -/
def hierarchyEndNodeNameSeparator : PyStr := [' ', '-', ' ']

/-- `get_structure_bucket_and_object_key_prefix_from_id` -/
def getStructureBucketAndObjectKeyPrefixFromId (id : PyStr) :
    Except BlobError (StructureBucket × PyStr) :=
  match splitOnce '/' id with
  | none => .error .value
  | some (bucketNameString, objectKeyString) => do
    let bucket ← StructureBucket.create bucketNameString
    return (bucket, objectKeyString)

/-- The part behind the last separator of directories. -/
def lastSegment (name : PyStr) : PyStr :=
  match rsplitOnce '/' name with
  | none => name
  | some (_, segment) => segment

section Sources

variable [PythonTexts]

/-! ## Object keys in ids and metadata keys -/

namespace ObjectKey

/-- The parts of the end of a metadata key: the id of the job, and the extension in brackets. -/
def splitExtension (jobIdString : PyStr) : PyStr × PyStr :=
  match SplitFirst.splitFirst [' ', '('] jobIdString with
  | none => (jobIdString, [])
  | some (jobIdString, fileExtensionString) =>
    (jobIdString, ((splitOnce ')' fileExtensionString).map Prod.fst).getD fileExtensionString)

/-- `from_thing_node_id_and_metadata_key` -/
def fromThingNodeIdAndMetadataKey (thingNodeId metadataKey : PyStr)
    (fileExtension : Option FileExtension) : Except BlobError ObjectKey := do
  require ((SplitFirst.splitAll hierarchyEndNodeNameSeparator metadataKey).length = 3) .value
  match SplitFirst.rsplitMax hierarchyEndNodeNameSeparator 2 metadataKey with
  | [name, timeString, jobIdString] =>
    require (name.isSuffixOf thingNodeId) .value
    let (_, objectKeyPrefix) ← getStructureBucketAndObjectKeyPrefixFromId thingNodeId
    let (jobIdString, fileExtensionString) := splitExtension jobIdString
    match datetimeOfText timeString, jobIdOfText jobIdString,
        fileExtension.or (FileExtension.ofText fileExtensionString) with
    | some time, some jobId, some fileExtension =>
      fromNameAndTimeAndJobId objectKeyPrefix time jobId fileExtension
    | _, _, _ => .error .value
  | _ => .error .value

/-- `to_thing_node_id` -/
def toThingNodeId (key : ObjectKey) (bucket : StructureBucket) : PyStr :=
  bucket.name ++ '/' :: key.name

end ObjectKey

/-! ## Sources -/

/-- The fields of a source. -/
structure SourceData where
  id : PyStr
  thingNodeId : PyStr
  name : PyStr
  path : PyStr
  metadataKey : PyStr
  deriving DecidableEq

/-- The validator `id_matches_scheme`. -/
def idMatchesScheme (id : PyStr) : Bool :=
  match getStructureBucketAndObjectKeyPrefixFromId id with
  | .error _ => false
  | .ok (_, objectKeyString) => (ObjectKey.fromString objectKeyString).isOk

/-- The end of a name fits the id of a job and the extension of a key. -/
def jobIdMatches (jobIdString : PyStr) (fileOk : ObjectKey) : Bool :=
  match SplitFirst.splitFirst [' ', '('] jobIdString with
  | none => uuidStr fileOk.jobId = jobIdString
  | some (jobIdString, fileExtension) =>
    match splitOnce ')' fileExtension with
    | none => false
    | some (fileExtension, _) =>
      fileOk.fileExtension.value = fileExtension ∧
        (FileExtension.all.any fun ext => ext.value = fileExtension) ∧
        uuidStr fileOk.jobId = jobIdString

/-- The validator `name_matches_id`. -/
def nameMatchesId (id name : PyStr) : Bool :=
  match rsplitOnce '/' id with
  | none => false
  | some (_, fileStringFromId) =>
    match ObjectKey.fromString fileStringFromId with
    | .error _ => false
    | .ok fileOk =>
      match SplitFirst.splitAll hierarchyEndNodeNameSeparator name with
      | [thingNodeName, sourceTime, jobId] =>
        thingNodeName = fileOk.name ∧ fileOk.time.isoformat ' ' = sourceTime ∧
          jobIdMatches jobId fileOk
      | _ => false

/-- All validators of the fields. -/
def SourceData.valid (data : SourceData) : Bool :=
  idString data.id ∧ idMatchesScheme data.id ∧ idString data.thingNodeId ∧
    (rsplitMax '_' 2 data.id).head? = some data.thingNodeId ∧ nameMatchesId data.id data.name ∧
    data.path = data.thingNodeId ∧ data.metadataKey = data.name

/-- A source whose fields fit together. -/
structure BlobStorageStructureSource extends SourceData where
  valid : toSourceData.valid = true
  deriving DecidableEq

/-- The name which a source has for an object. -/
def sourceName (key : ObjectKey) : PyStr :=
  lastSegment key.name ++ hierarchyEndNodeNameSeparator ++ (key.time.isoformat ' ' ++
    hierarchyEndNodeNameSeparator ++
      (uuidStr key.jobId ++ ' ' :: '(' :: (key.fileExtension.value ++ [')'])))

/-- The fields of the source for an object. -/
def sourceData (bucket : StructureBucket) (key : ObjectKey) : SourceData where
  id := bucket.name ++ '/' :: key.string
  thingNodeId := key.toThingNodeId bucket
  name := sourceName key
  path := key.toThingNodeId bucket
  metadataKey := sourceName key

/-- `from_structure_bucket_and_object_key` -/
def BlobStorageStructureSource.fromStructureBucketAndObjectKey (bucket : StructureBucket)
    (key : ObjectKey) : Except BlobError BlobStorageStructureSource :=
  if h : (sourceData bucket key).valid = true then .ok ⟨sourceData bucket key, h⟩
  else .error .validation

/-- There is a source for an object, from whose fields bucket and key are found again. -/
def LeadsBack (bucket : StructureBucket) (key : ObjectKey) : Prop :=
  ∃ source, BlobStorageStructureSource.fromStructureBucketAndObjectKey bucket key = .ok source ∧
    getStructureBucketAndObjectKeyPrefixFromId source.id = .ok (bucket, key.string) ∧
    ObjectKey.fromThingNodeIdAndMetadataKey source.thingNodeId source.metadataKey none = .ok key

/-! ## The parts of a source name -/

section Parts

omit [PythonTexts] in
/-- Texts without spaces around the parts of a name. -/
theorem space_notMem {s : PyStr} (h : ∀ c ∈ s, nameChar c = true) : ' ' ∉ s :=
  fun hmem => absurd (h _ hmem) (by decide)

omit [PythonTexts] in
/-- A date has no space. -/
theorem space_notMem_isoDate (time : DateTime) : ' ' ∉ time.isoDate := fun hmem =>
  absurd (nameChar_of_iso (mem_isoDate hmem)) (by decide)

omit [PythonTexts] in
/-- A time of the day in UTC without microseconds has no space. -/
theorem space_notMem_isoTime {time : DateTime} (hutc : time.utcoffset = some 0)
    (hseconds : time.microsecond = 0) : ' ' ∉ time.isoTime := fun hmem =>
  absurd (nameChar_of_iso (mem_isoTime hutc hseconds hmem)) (by decide)

omit [PythonTexts] in
/-- Digits are no dashes. -/
theorem ne_dash_of_isDigit {c : Char} (h : c.isDigit = true) : c ≠ '-' := by
  rintro rfl
  exact absurd h (by decide)

omit [PythonTexts] in
/-- The text of an id ends with a digit. -/
theorem getLast?_uuidStr (id : UUID) : ∃ c, (uuidStr id).getLast? = some c ∧ c ∈ lowerHex := by
  have hne : (hexOfUuid id).drop 20 ≠ [] := by
    have hlength : 32 ≤ (hexOfUuid id).length := by
      rw [hexOfUuid, List.length_leftpad]
      exact Nat.le_max_left ..
    intro hnil
    have hle := List.drop_eq_nil_iff.mp hnil
    omega
  refine ⟨((hexOfUuid id).drop 20).getLast hne, ?_, ?_⟩
  · simp only [uuidStr, List.append_assoc, List.cons_append, List.getLast?_append,
      List.getLast?_cons, List.getLast?_eq_some_getLast hne]
    rfl
  · exact mem_lowerHex_of_hexOfUuid id _ (List.mem_of_mem_drop (List.getLast_mem hne))

omit [PythonTexts] in
/-- In the middle part of a name the space stands between digits. -/
theorem followedByOther_isoformat {time : DateTime} (hutc : time.utcoffset = some 0)
    (hseconds : time.microsecond = 0) :
    SplitFirst.FollowedByOther ' ' '-' (time.isoformat ' ') ∧
      SplitFirst.FollowedByOther ' ' '-' (time.isoformat ' ').reverse := by
  have hdate := space_notMem_isoDate time
  have htime := space_notMem_isoTime hutc hseconds
  constructor
  · have hdigit := isDigit_digitChar (Nat.mod_lt (time.hour / 10 ^ 1) (show 0 < 10 by decide))
    exact SplitFirst.followedByOther_append hdate htime rfl (ne_dash_of_isDigit hdigit)
  · have hdigit := isDigit_digitChar (Nat.mod_lt (time.day / 10 ^ 0) (show 0 < 10 by decide))
    have hlast : time.isoDate.reverse.head? = some (time.day / 10 ^ 0 % 10).digitChar := by
      rw [List.head?_reverse]
      simp [DateTime.isoDate, padded]
    rw [DateTime.isoformat, List.reverse_append, List.reverse_cons, List.append_assoc,
      List.singleton_append]
    exact SplitFirst.followedByOther_append (mt List.mem_reverse.mp htime)
      (mt List.mem_reverse.mp hdate) hlast (ne_dash_of_isDigit hdigit)

omit [PythonTexts] in
/-- In the last part of a name the space stands between a digit and a bracket. -/
theorem followedByOther_job (jobId : JobId) (ext : FileExtension) :
    SplitFirst.FollowedByOther ' ' '-' (uuidStr jobId ++ ' ' :: '(' :: (ext.value ++ [')'])) ∧
      SplitFirst.FollowedByOther ' ' '-'
        (uuidStr jobId ++ ' ' :: '(' :: (ext.value ++ [')'])).reverse := by
  have hjob := space_notMem (nameChar_of_uuidStr jobId)
  have hext : ' ' ∉ '(' :: (ext.value ++ [')']) := by
    cases ext <;> decide
  constructor
  · exact SplitFirst.followedByOther_append hjob hext rfl (by decide)
  · obtain ⟨c, hc, hdigit⟩ := getLast?_uuidStr jobId
    have hne : c ≠ '-' := by
      rintro rfl
      exact absurd hdigit (by decide)
    rw [List.reverse_append, List.reverse_cons, List.append_assoc, List.singleton_append]
    refine SplitFirst.followedByOther_append (mt List.mem_reverse.mp hext)
      (mt List.mem_reverse.mp hjob) ?_ hne
    rw [List.head?_reverse, hc]

omit [PythonTexts] in
/-- The brackets of an extension are found. -/
theorem splitFirst_brackets (jobId : JobId) (ext : FileExtension) :
    SplitFirst.splitFirst [' ', '('] (uuidStr jobId ++ ' ' :: '(' :: (ext.value ++ [')'])) =
      some (uuidStr jobId, ext.value ++ [')']) := by
  have hstart : SplitFirst.splitFirst [' ', '('] (' ' :: '(' :: (ext.value ++ [')'])) =
      some ([], ext.value ++ [')']) := SplitFirst.splitFirst_at_start [' ', '('] _
  rw [SplitFirst.splitFirst_append_of_notMem (space_notMem (nameChar_of_uuidStr jobId)), hstart,
    Option.map_some, List.append_nil]

omit [PythonTexts] in
/-- The extension stands in front of the closing bracket. -/
theorem splitOnce_bracket (ext : FileExtension) :
    splitOnce ')' (ext.value ++ [')']) = some (ext.value, []) := by
  refine splitOnce_eq_some_iff.mpr ⟨rfl, ?_⟩
  cases ext <;> decide

end Parts

/-! ## Sources lead back to their objects -/

section Back

variable {bucket : StructureBucket} {key : ObjectKey}

/-- The characters of the name of a bucket. -/
def bucketChar (c : Char) : Bool := idChar c && c ≠ '/' && c ≠ '_'

omit [PythonTexts] in
/-- The characters of a name which does not end with a newline. -/
theorem bucketChar_of_mem (h : bucket.name.getLast? ≠ some '\n') :
    ∀ c ∈ bucket.name, bucketChar c = true := by
  obtain ⟨-, -, -, hall⟩ := of_decide_eq_true bucket.name_valid
  rw [withoutFinalNewline_eq_self h] at hall
  intro c hc
  have hchar := List.all_eq_true.mp hall c hc
  have hslash : c ≠ '/' := by
    rintro rfl
    exact absurd hchar (by decide)
  have hunderscore : c ≠ '_' := by
    rintro rfl
    exact absurd hchar (by decide)
  simp only [Bool.or_eq_true, decide_eq_true_eq] at hchar
  rcases hchar with (hchar | hchar) | rfl
  · have hletter : c.isAlphanum = true := by
      change ((c.isUpper || c.isLower) || c.isDigit) = true
      rw [hchar, Bool.or_true, Bool.true_or]
    simp [bucketChar, idChar, hletter, hslash, hunderscore]
  · simp [bucketChar, idChar, Char.isAlphanum, hchar, hslash, hunderscore]
  · decide

omit [PythonTexts] in
/-- Names of buckets have no separator of directories. -/
theorem slash_notMem_bucket (h : bucket.name.getLast? ≠ some '\n') : '/' ∉ bucket.name :=
  fun hmem => absurd (bucketChar_of_mem h _ hmem) (by decide)

omit [PythonTexts] in
/-- A bucket is created from its name. -/
theorem StructureBucket.create_name (bucket : StructureBucket) :
    StructureBucket.create bucket.name = .ok bucket := dif_pos bucket.name_valid

omit [PythonTexts] in
/-- The id of a source is split into the bucket and the text of the key. -/
theorem getStructureBucket_of_newline (h : bucket.name.getLast? ≠ some '\n') (prefixed : PyStr) :
    getStructureBucketAndObjectKeyPrefixFromId (bucket.name ++ '/' :: prefixed) =
      .ok (bucket, prefixed) := by
  have hsplit : splitOnce '/' (bucket.name ++ '/' :: prefixed) = some (bucket.name, prefixed) :=
    splitOnce_eq_some_iff.mpr ⟨rfl, slash_notMem_bucket h⟩
  rw [getStructureBucketAndObjectKeyPrefixFromId, hsplit]
  dsimp only
  rw [bucket.create_name]
  rfl

omit [PythonTexts] in
/-- The last segment stands behind the last separator, if there is one. -/
theorem lastSegment_spec (name : PyStr) : '/' ∉ lastSegment name ∧
    (name = lastSegment name ∨ ∃ before, name = before ++ '/' :: lastSegment name) := by
  unfold lastSegment
  cases hsplit : rsplitOnce '/' name with
  | none =>
    rw [rsplitOnce, Option.map_eq_none_iff, splitOnce_eq_none_iff, List.mem_reverse] at hsplit
    exact ⟨hsplit, Or.inl rfl⟩
  | some parts =>
    obtain ⟨hname, hnot⟩ := rsplitOnce_eq_some_iff.mp hsplit
    exact ⟨hnot, Or.inr ⟨parts.1, hname⟩⟩

omit [PythonTexts] in
/-- The last segment is at the end of the name. -/
theorem lastSegment_isSuffix (name : PyStr) : lastSegment name <:+ name := by
  rcases (lastSegment_spec name).2 with h | ⟨before, h⟩
  · rw [← h]
  · exact ⟨before ++ ['/'], by rw [List.append_assoc, List.singleton_append, ← h]⟩

omit [PythonTexts] in
/-- A name which does not end with the separator has a last segment. -/
theorem lastSegment_ne_nil {name : PyStr} (hne : name ≠ []) (h : name.getLast? ≠ some '/') :
    lastSegment name ≠ [] := by
  intro hnil
  rcases (lastSegment_spec name).2 with hname | ⟨before, hname⟩
  · exact hne (hname.trans hnil)
  · rw [hnil] at hname
    exact h (by rw [hname]; simp)

/-- The fields of the key of an object without its directories. -/
def fileData (key : ObjectKey) : ObjectKeyData :=
  ⟨keyString (lastSegment key.name) key.time key.jobId key.fileExtension, lastSegment key.name,
    key.time, key.jobId, key.fileExtension⟩

/-- They are proper if there is a last segment. -/
theorem fileData_proper (h : key.name.getLast? ≠ some '/') : (fileData key).Proper where
  string_eq := rfl
  name_ne_nil := lastSegment_ne_nil key.proper.name_ne_nil h
  name_chars := fun c hc => key.proper.name_chars c ((lastSegment_isSuffix key.name).subset hc)
  utc := key.proper.utc
  seconds := key.proper.seconds

/-- The file of an id is the key without its directories. -/
theorem rsplitOnce_id (bucket : StructureBucket) (key : ObjectKey) :
    ∃ before, rsplitOnce '/' (sourceData bucket key).id = some (before, (fileData key).string) := by
  have hproper := key.proper
  obtain ⟨hslash, hname⟩ := lastSegment_spec key.name
  have hiso : '/' ∉ key.time.isoformat 'T' := by
    intro hmem
    rcases List.mem_append.mp hmem with hmem | hmem
    · exact absurd (mem_isoDate hmem) (by decide)
    · rcases List.mem_cons.mp hmem with heq | hmem
      · exact absurd heq (by decide)
      · exact absurd (mem_isoTime hproper.utc hproper.seconds hmem) (by decide)
  have hjob : '/' ∉ uuidStr key.jobId := by
    intro hmem
    rcases mem_of_uuidStr _ _ hmem with heq | hmem
    · exact absurd heq (by decide)
    · exact absurd hmem (by decide)
  have hext : '/' ∉ key.fileExtension.value := by
    cases key.fileExtension <;> decide
  have hfile : '/' ∉ (fileData key).string := by
    simp [fileData, keyString, hslash, hiso, hjob, hext]
  have hid : (sourceData bucket key).id = bucket.name ++ '/' :: keyString key.name key.time
      key.jobId key.fileExtension := by
    rw [← hproper.string_eq]
    rfl
  rcases hname with hname | ⟨before, hname⟩
  · refine ⟨bucket.name, rsplitOnce_eq_some_iff.mpr ⟨?_, hfile⟩⟩
    rw [hid, fileData, ← hname]
  · refine ⟨bucket.name ++ '/' :: before, rsplitOnce_eq_some_iff.mpr ⟨?_, hfile⟩⟩
    rw [hid]
    conv_lhs => rw [hname]
    simp [fileData, keyString]

/-- The parts of the name of a source. -/
theorem splitAll_sourceName (key : ObjectKey) :
    SplitFirst.splitAll hierarchyEndNodeNameSeparator (sourceName key) =
      [lastSegment key.name, key.time.isoformat ' ',
        uuidStr key.jobId ++ ' ' :: '(' :: (key.fileExtension.value ++ [')'])] := by
  have hsegment : ' ' ∉ lastSegment key.name := space_notMem fun c hc =>
    key.proper.name_chars c ((lastSegment_isSuffix key.name).subset hc)
  exact SplitFirst.splitAll_marked (SplitFirst.followedByOther_of_notMem hsegment)
    (followedByOther_isoformat key.proper.utc key.proper.seconds).1
    (followedByOther_job key.jobId key.fileExtension).1

/-- The parts of the name of a source, split from the right. -/
theorem rsplitMax_sourceName (key : ObjectKey) :
    SplitFirst.rsplitMax hierarchyEndNodeNameSeparator 2 (sourceName key) =
      [lastSegment key.name, key.time.isoformat ' ',
        uuidStr key.jobId ++ ' ' :: '(' :: (key.fileExtension.value ++ [')'])] :=
  SplitFirst.rsplitMax_marked (followedByOther_isoformat key.proper.utc key.proper.seconds).2
    (followedByOther_job key.jobId key.fileExtension).2

/-- The name of a source matches its id. -/
theorem nameMatchesId_sourceData (bucket : StructureBucket)
    (hext : key.fileExtension ≠ .customObjectsPkl) (hname : key.name.getLast? ≠ some '/') :
    nameMatchesId (sourceData bucket key).id (sourceData bucket key).name = true := by
  obtain ⟨before, hid⟩ := rsplitOnce_id bucket key
  have hfile : ObjectKey.fromString (fileData key).string =
      .ok ⟨fileData key, (fileData_proper hname).valid⟩ :=
    @ObjectKey.fromString_of_plain _ ⟨fileData key, (fileData_proper hname).valid⟩ hext
  have hmember : (FileExtension.all.any fun ext => ext.value = key.fileExtension.value) = true := by
    cases key.fileExtension <;> decide
  rw [nameMatchesId, hid]
  dsimp only
  rw [hfile]
  dsimp only [sourceData]
  rw [splitAll_sourceName]
  refine decide_eq_true ⟨rfl, rfl, ?_⟩
  rw [jobIdMatches, splitFirst_brackets]
  dsimp only
  rw [splitOnce_bracket]
  exact decide_eq_true ⟨rfl, hmember, rfl⟩

/-- The characters in front of the extension of the id of a source. -/
theorem idString_sourceData (h : bucket.name.getLast? ≠ some '\n') :
    idString (sourceData bucket key).id = true := by
  have hstring := key.proper.valid
  obtain ⟨hstring, -⟩ := of_decide_eq_true hstring
  have hcore : key.string = (key.name ++ '_' :: (key.time.isoformat 'T' ++
      '_' :: uuidStr key.jobId)) ++ '.' :: key.fileExtension.value := by
    rw [key.proper.string_eq]
    simp [keyString]
  rw [hcore, idString_extension_iff] at hstring
  have hid : (sourceData bucket key).id = (bucket.name ++ '/' :: (key.name ++ '_' ::
      (key.time.isoformat 'T' ++ '_' :: uuidStr key.jobId))) ++ '.' :: key.fileExtension.value := by
    rw [sourceData, hcore]
    simp
  rw [hid, idString_extension_iff]
  refine ⟨by simp, fun c hc => ?_⟩
  rcases List.mem_append.mp hc with hc | hc
  · have hchar := bucketChar_of_mem h c hc
    simp only [bucketChar, Bool.and_eq_true] at hchar
    exact hchar.1.1
  · rcases List.mem_cons.mp hc with rfl | hc
    · decide
    · exact hstring.2 c hc

/-- The fields of a source fit together. -/
theorem sourceData_valid (hbucket : bucket.name.getLast? ≠ some '\n')
    (hext : key.fileExtension ≠ .customObjectsPkl) (hname : key.name.getLast? ≠ some '/') :
    (sourceData bucket key).valid = true := by
  have hproper := key.proper
  have hscheme : idMatchesScheme (sourceData bucket key).id = true := by
    rw [idMatchesScheme, sourceData, getStructureBucket_of_newline hbucket]
    dsimp only
    rw [ObjectKey.fromString_of_plain hext]
    rfl
  have hnode : idString (sourceData bucket key).thingNodeId = true := by
    refine idString_of_all (by simp [sourceData, ObjectKey.toThingNodeId]) fun c hc => ?_
    rcases List.mem_append.mp hc with hc | hc
    · have hchar := bucketChar_of_mem hbucket c hc
      simp only [bucketChar, Bool.and_eq_true] at hchar
      exact hchar.1.1
    · rcases List.mem_cons.mp hc with rfl | hc
      · decide
      · exact ((Bool.and_eq_true _ _).mp (hproper.name_chars c hc)).1
  have hsplit : rsplitMax '_' 2 (sourceData bucket key).id = [key.toThingNodeId bucket,
      key.time.isoformat 'T', uuidStr key.jobId ++ '.' :: key.fileExtension.value] := by
    obtain ⟨htime, -⟩ := notMem_of_nameChar (nameChar_of_isoformat hproper.utc hproper.seconds)
    obtain ⟨hjob, -⟩ := notMem_of_nameChar (nameChar_of_uuidStr key.jobId)
    have hext' := key.fileExtension.underscore_mem_value_iff.not.mpr hext
    refine rsplitMax_two_eq_triple_iff.mpr ⟨?_, htime, by simp [hjob, hext']⟩
    rw [sourceData, hproper.string_eq]
    simp [ObjectKey.toThingNodeId, keyString]
  refine decide_eq_true ⟨idString_sourceData hbucket, hscheme, hnode, ?_,
    nameMatchesId_sourceData bucket hext hname, rfl, rfl⟩
  rw [hsplit]
  rfl

/-- The key is found again from the thing node and the name of its source. -/
theorem fromThingNodeIdAndMetadataKey_sourceName (hbucket : bucket.name.getLast? ≠ some '\n') :
    ObjectKey.fromThingNodeIdAndMetadataKey (key.toThingNodeId bucket) (sourceName key) none =
      .ok key := by
  have hsuffix : (lastSegment key.name).isSuffixOf (key.toThingNodeId bucket) = true := by
    rw [List.isSuffixOf_iff_suffix]
    exact (lastSegment_isSuffix key.name).trans ⟨bucket.name ++ ['/'], by
      rw [List.append_assoc]
      rfl⟩
  have hextension : ObjectKey.splitExtension (uuidStr key.jobId ++ ' ' :: '(' ::
      (key.fileExtension.value ++ [')'])) = (uuidStr key.jobId, key.fileExtension.value) := by
    rw [ObjectKey.splitExtension, splitFirst_brackets]
    dsimp only
    rw [splitOnce_bracket]
    rfl
  rw [ObjectKey.fromThingNodeIdAndMetadataKey, splitAll_sourceName, rsplitMax_sourceName]
  refine (require_bind_of rfl).trans ?_
  dsimp only
  rw [require_bind_of hsuffix, ObjectKey.toThingNodeId, getStructureBucket_of_newline hbucket]
  change (match datetimeOfText (key.time.isoformat ' '),
    jobIdOfText (ObjectKey.splitExtension _).1, (none : Option FileExtension).or
      (FileExtension.ofText (ObjectKey.splitExtension _).2) with
    | some time, some jobId, some fileExtension =>
      ObjectKey.fromNameAndTimeAndJobId key.name time jobId fileExtension
    | _, _, _ => .error .value) = _
  rw [hextension, datetimeOfText_isoformat key.proper.utc key.proper.seconds, jobIdOfText_uuidStr,
    FileExtension.ofText_value]
  exact key.fromNameAndTimeAndJobId_self

/-- The id of a source is refused if the name of the bucket ends with a newline. -/
theorem not_valid_of_newline (h : bucket.name.getLast? = some '\n') :
    (sourceData bucket key).valid ≠ true := by
  intro hvalid
  obtain ⟨hid, -⟩ := of_decide_eq_true hvalid
  have hcore : (sourceData bucket key).id = (bucket.name ++ '/' :: (key.name ++ '_' ::
      (key.time.isoformat 'T' ++ '_' :: uuidStr key.jobId))) ++ '.' :: key.fileExtension.value := by
    rw [sourceData, key.proper.string_eq]
    simp [keyString]
  rw [hcore, idString_extension_iff] at hid
  have hnewline : '\n' ∈ bucket.name := List.mem_of_getLast? h
  exact absurd (hid.2 _ (List.mem_append_left _ hnewline)) (by decide)

/-- There is no source for an object of such a bucket. -/
theorem not_leadsBack_of_newline (h : bucket.name.getLast? = some '\n') :
    ¬ LeadsBack bucket key := by
  rintro ⟨source, hsource, -⟩
  rw [BlobStorageStructureSource.fromStructureBucketAndObjectKey,
    dif_neg (not_valid_of_newline h)] at hsource
  cases hsource

/-- A source which leads back to its object exists exactly if the name of the bucket does not end
with a newline. -/
theorem leadsBack_iff (hext : key.fileExtension ≠ .customObjectsPkl)
    (hname : key.name.getLast? ≠ some '/') :
    LeadsBack bucket key ↔ bucket.name.getLast? ≠ some '\n' := by
  constructor
  · intro hback hlast
    exact not_leadsBack_of_newline hlast hback
  · intro hbucket
    have hvalid := sourceData_valid hbucket hext hname
    exact ⟨_, dif_pos hvalid, getStructureBucket_of_newline hbucket _,
      fromThingNodeIdAndMetadataKey_sourceName hbucket⟩

end Back

end Sources

/-- The pickled object of the key of the new year. -/
def newYearObject : @ObjectKey asciiTexts :=
  @ObjectKey.mk asciiTexts (newYearKey .pickle)
    (@ObjectKeyData.Proper.valid asciiTexts _ (newYearKey_proper .pickle))

/-- A bucket is created whose name ends with a newline, and no source is made for its object. -/
theorem newline_bucket_no_source :
    ∃ bucket, StructureBucket.create ['a', 'b', 'c', '\n'] = .ok bucket ∧
      newYearObject.fileExtension ≠ .customObjectsPkl ∧ newYearObject.name.getLast? ≠ some '/' ∧
      ¬ @LeadsBack asciiTexts bucket newYearObject :=
  ⟨_, dif_pos (by decide), by decide, by decide, @not_leadsBack_of_newline asciiTexts _ _ rfl⟩

/-- The source of an object in a bucket without the newline leads back to it. -/
theorem plain_bucket_leadsBack :
    @LeadsBack asciiTexts ⟨['a', 'b', 'c'], by decide⟩ newYearObject :=
  (@leadsBack_iff asciiTexts _ _ (by decide) (by decide)).mpr (by decide)

end HetidaDesigner
