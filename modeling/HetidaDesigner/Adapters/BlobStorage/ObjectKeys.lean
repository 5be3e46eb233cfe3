import HetidaDesigner.Library.Checks
import HetidaDesigner.Library.IsoFormat
import HetidaDesigner.Library.SplitOnce
import HetidaDesigner.Models.Uuids

/-!
# Keys of objects in the blob storage

The texts which `adapters/blob_storage/models.py` accepts as ids and names of buckets, and the class
`ObjectKey`. A key has the form `name_time_job.extension`. The validators split off the extension
before they count underscores, whereas `from_string` splits at the last two underscores.

In the regular expressions `$` also matches just before a final newline, and the point in front of
an extension matches any character but a newline.
-/

namespace HetidaDesigner

open Checks IsoFormat SplitOnce

/-- What the standard library reads off tables: digits and whitespace in UUIDs, and instants in
other formats than those which `isoformat` writes. -/
class PythonTexts where
  numerals : NumeralTables
  isoFormats : PyStr → Option DateTime

/-- Reasons for refusing data of the blob storage. -/
inductive BlobError
  | validation
  | value
  deriving DecidableEq, Repr

/-! ## Accepted texts -/

/-- What `$` lets follow is left out. -/
def withoutFinalNewline (s : PyStr) : PyStr := if s.getLast? = some '\n' then s.dropLast else s

/-- Extensions of the files in the storage. -/
inductive FileExtension
  | h5
  | pickle
  | customObjectsPkl
  deriving DecidableEq, Repr

namespace FileExtension

/-- All members, in the order of their definition. -/
def all : List FileExtension := [.h5, .pickle, .customObjectsPkl]

/-- The text of a member. -/
def value : FileExtension → PyStr
  | .h5 => "h5".toList
  | .pickle => "pkl".toList
  | .customObjectsPkl => "custom_objects_pkl".toList

/-- The member with a text. -/
def ofText (text : PyStr) : Option FileExtension := all.find? fun ext => ext.value = text

/-- A member is the one with its text. -/
@[simp] theorem ofText_value (ext : FileExtension) : ofText ext.value = some ext := by
  cases ext <;> decide

/-- No extension has a point. -/
theorem point_notMem_value (ext : FileExtension) : '.' ∉ ext.value := by
  cases ext <;> decide

/-- No extension ends with a newline. -/
theorem getLast?_value (ext : FileExtension) : ∃ c, ext.value.getLast? = some c ∧ c ≠ '\n' := by
  cases ext
  · exact ⟨'5', by decide, by decide⟩
  · exact ⟨'l', by decide, by decide⟩
  · exact ⟨'l', by decide, by decide⟩

/-- Extensions have no underscore but that for custom objects. -/
theorem underscore_mem_value_iff (ext : FileExtension) :
    '_' ∈ ext.value ↔ ext = .customObjectsPkl := by
  cases ext <;> decide

end FileExtension

/-- The characters of ids. -/
def idChar (c : Char) : Bool := c.isAlphanum || c ∈ [':', '+', '-', '/', '_']

/-- What may follow the first character of an id: further characters, and an extension at the
end. -/
def idRest : PyStr → Bool
  | [] => true
  | c :: rest =>
    (c ≠ '\n' && FileExtension.all.any fun ext => ext.value = rest) || (idChar c && idRest rest)

/-- Strings accepted as `IdString`. -/
def idString (s : PyStr) : Bool :=
  match withoutFinalNewline s with
  | [] => false
  | c :: rest => idChar c && idRest rest

/-- Strings accepted as `BucketName`. -/
def bucketName (s : PyStr) : Bool :=
  3 ≤ s.length ∧ s.length ≤ 63 ∧ withoutFinalNewline s ≠ [] ∧
    (withoutFinalNewline s).all fun c => c.isLower || c.isDigit || c = '-'

/-- A bucket with an accepted name. -/
structure StructureBucket where
  name : PyStr
  name_valid : bucketName name = true
  deriving DecidableEq

/-- The bucket with a name. -/
def StructureBucket.create (name : PyStr) : Except BlobError StructureBucket :=
  if h : bucketName name = true then .ok ⟨name, h⟩ else .error .validation

/-! ## Object keys -/

/-- The id of a job. -/
abbrev JobId := {id : UUID // id < 2 ^ 128}

/-- The fields of a key. -/
structure ObjectKeyData where
  string : PyStr
  name : PyStr
  time : DateTime
  jobId : JobId
  fileExtension : FileExtension
  deriving DecidableEq

section Keys

variable [PythonTexts]

/-- `datetime.fromisoformat` -/
def datetimeOfText (text : PyStr) : Option DateTime :=
  DateTime.fromisoformat PythonTexts.isoFormats text

/-- `UUID` for the texts of jobs -/
def jobIdOfText (text : PyStr) : Option JobId :=
  (uuidOfText PythonTexts.numerals text).bind fun id =>
    if h : id < 2 ^ 128 then some ⟨id, h⟩ else none

/-- The validator `string_matches_pattern`. -/
def stringMatchesPattern (string : PyStr) : Bool :=
  let okWithoutExt := (string.splitOn '.').headD []
  string.count '.' = 1 && okWithoutExt.count '_' = 2 &&
    match okWithoutExt.splitOn '_' with
    | [_, timeString, jobIdString] =>
      (datetimeOfText timeString).isSome && (jobIdOfText jobIdString).isSome
    | _ => false

namespace ObjectKeyData

/-- All validators of the fields. -/
def valid (data : ObjectKeyData) : Bool :=
  idString data.string ∧ stringMatchesPattern data.string ∧
    idString data.name ∧ (data.string.splitOn '_')[0]? = some data.name ∧
    (data.string.splitOn '_')[1]? = some (data.time.isoformat 'T') ∧
    data.time.utcoffset = some 0 ∧
    (((data.string.splitOn '.').headD []).splitOn '_')[2]? = some (uuidStr data.jobId) ∧
    (data.string.splitOn '.')[1]? = some data.fileExtension.value

end ObjectKeyData

/-- A key whose fields fit together. -/
structure ObjectKey extends ObjectKeyData where
  valid : toObjectKeyData.valid = true
  deriving DecidableEq

/-- The text of a key. -/
def keyString (name : PyStr) (time : DateTime) (jobId : JobId) (ext : FileExtension) : PyStr :=
  name ++ '_' :: (time.isoformat 'T' ++ '_' :: (uuidStr jobId ++ '.' :: ext.value))

namespace ObjectKey

/-- The key with some fields. -/
def create (data : ObjectKeyData) : Except BlobError ObjectKey :=
  if h : data.valid = true then .ok ⟨data, h⟩ else .error .validation

/-- `from_name_and_time_and_job_id` -/
def fromNameAndTimeAndJobId (name : PyStr) (time : DateTime) (jobId : JobId)
    (fileExtension : FileExtension) : Except BlobError ObjectKey :=
  create ⟨keyString name time jobId fileExtension, name, time, jobId, fileExtension⟩

/-- `from_string` -/
def fromString (string : PyStr) : Except BlobError ObjectKey :=
  match rsplitMax '_' 2 string with
  | [name, timeString, jobIdString] =>
    match splitOnce '.' jobIdString with
    | none => .error .value
    | some (jobIdString, fileExtension) =>
      match datetimeOfText timeString, jobIdOfText jobIdString,
          FileExtension.ofText fileExtension with
      | some time, some jobId, some fileExtension =>
        create ⟨string, name, time, jobId, fileExtension⟩
      | _, _, _ => .error .value
  | _ => .error .value

/-- `to_custom_objects_object_key` -/
def toCustomObjectsObjectKey (key : ObjectKey) : Except BlobError ObjectKey :=
  fromNameAndTimeAndJobId key.name key.time key.jobId .customObjectsPkl

end ObjectKey

end Keys

/-! ## Which keys there are -/

/-- Without a final newline a text is left as it is. -/
theorem withoutFinalNewline_eq_self {s : PyStr} (h : s.getLast? ≠ some '\n') :
    withoutFinalNewline s = s := if_neg h

/-- Characters of ids are neither points nor newlines. -/
theorem idChar_ne {c : Char} (h : idChar c = true) : c ≠ '.' ∧ c ≠ '\n' := by
  constructor
  · rintro rfl
    exact absurd h (by decide)
  · rintro rfl
    exact absurd h (by decide)

/-- Characters of ids may follow the first one. -/
theorem idRest_of_all {s : PyStr} (h : ∀ c ∈ s, idChar c = true) : idRest s = true := by
  induction s with
  | nil => rfl
  | cons c rest ih =>
    obtain ⟨hc, hrest⟩ := List.forall_mem_cons.mp h
    rw [idRest, hc, ih hrest, Bool.and_true, Bool.or_true]

/-- A text in front of an extension consists of characters of ids. -/
theorem idRest_extension_iff {s : PyStr} {ext : FileExtension} :
    idRest (s ++ '.' :: ext.value) = true ↔ ∀ c ∈ s, idChar c = true := by
  induction s with
  | nil =>
    refine iff_of_true ?_ fun _ h => absurd h List.not_mem_nil
    rw [List.nil_append, idRest]
    cases ext <;> decide
  | cons c rest ih =>
    have hpoint : ∀ other : FileExtension, other.value ≠ rest ++ '.' :: ext.value := by
      intro other heq
      exact other.point_notMem_value (heq ▸ List.mem_append_right _ List.mem_cons_self)
    have hnone : (FileExtension.all.any fun other => other.value = rest ++ '.' :: ext.value) =
        false := by
      rw [List.any_eq_false]
      exact fun other _ heq => hpoint other (of_decide_eq_true heq)
    rw [List.cons_append, idRest, hnone, Bool.and_false, Bool.false_or, Bool.and_eq_true, ih,
      List.forall_mem_cons]

/-- A nonempty text of characters of ids is an id. -/
theorem idString_of_all {s : PyStr} (hne : s ≠ []) (h : ∀ c ∈ s, idChar c = true) :
    idString s = true := by
  have hlast : s.getLast? ≠ some '\n' := fun heq =>
    (idChar_ne (h _ (List.mem_of_getLast? heq))).2 rfl
  rw [idString, withoutFinalNewline_eq_self hlast]
  cases s with
  | nil => exact absurd rfl hne
  | cons c rest =>
    obtain ⟨hc, hrest⟩ := List.forall_mem_cons.mp h
    change (idChar c && idRest rest) = true
    rw [hc, idRest_of_all hrest, Bool.and_true]

/-- Which texts are ids when an extension is appended. -/
theorem idString_extension_iff {s : PyStr} {ext : FileExtension} :
    idString (s ++ '.' :: ext.value) = true ↔ s ≠ [] ∧ ∀ c ∈ s, idChar c = true := by
  have hlast : (s ++ '.' :: ext.value).getLast? ≠ some '\n' := by
    obtain ⟨c, hc, hne⟩ := ext.getLast?_value
    rw [List.getLast?_append, List.getLast?_cons, hc]
    simpa using hne
  rw [idString, withoutFinalNewline_eq_self hlast]
  cases s with
  | nil =>
    refine iff_of_false ?_ fun h => h.1 rfl
    simp [idChar]
  | cons c rest =>
    change (idChar c && idRest (rest ++ '.' :: ext.value)) = true ↔ _
    rw [Bool.and_eq_true, idRest_extension_iff, List.forall_mem_cons]
    exact (and_iff_right (List.cons_ne_nil c rest)).symm

/-- Characters of names in keys. -/
def nameChar (c : Char) : Bool := idChar c && c ≠ '_'

/-- Digits and the signs in instants are allowed in names. -/
theorem nameChar_of_iso {c : Char} (h : c.isDigit = true ∨ c ∈ ['-', ':', '+']) :
    nameChar c = true := by
  rcases h with h | h
  · have hne : c ≠ '_' := by
      rintro rfl
      exact absurd h (by decide)
    simp [nameChar, idChar, Char.isAlphanum, h, hne]
  · have hall : ['-', ':', '+'].all nameChar = true := by decide
    exact List.all_eq_true.mp hall c h

/-- The characters of the format of an instant in UTC without microseconds. -/
theorem nameChar_of_isoformat {time : DateTime} (hutc : time.utcoffset = some 0)
    (hseconds : time.microsecond = 0) : ∀ c ∈ time.isoformat 'T', nameChar c = true := by
  intro c hc
  rcases List.mem_append.mp hc with hc | hc
  · exact nameChar_of_iso (mem_isoDate hc)
  · rcases List.mem_cons.mp hc with rfl | hc
    · decide
    · exact nameChar_of_iso (mem_isoTime hutc hseconds hc)

/-- The characters of the text of an id of a job. -/
theorem nameChar_of_uuidStr (id : UUID) : ∀ c ∈ uuidStr id, nameChar c = true := by
  intro c hc
  have hall : lowerHex.all nameChar = true := by decide
  rcases mem_of_uuidStr id c hc with rfl | hc
  · decide
  · exact List.all_eq_true.mp hall c hc

/-- Names have neither underscores nor points. -/
theorem notMem_of_nameChar {s : PyStr} (h : ∀ c ∈ s, nameChar c = true) : '_' ∉ s ∧ '.' ∉ s :=
  ⟨fun hmem => absurd (h _ hmem) (by decide), fun hmem => absurd (h _ hmem) (by decide)⟩

section Valid

variable [PythonTexts]

/-- The text of an instant in UTC without microseconds stands for that instant. -/
theorem datetimeOfText_isoformat {time : DateTime} (hutc : time.utcoffset = some 0)
    (hseconds : time.microsecond = 0) (sep : Char) :
    datetimeOfText (time.isoformat sep) = some time :=
  fromisoformat_isoformat hutc hseconds _ sep

/-- The text of the id of a job stands for that id. -/
theorem jobIdOfText_uuidStr (jobId : JobId) : jobIdOfText (uuidStr jobId) = some jobId := by
  rw [jobIdOfText, uuidOfText_uuidStr jobId.2, Option.bind_some, dif_pos jobId.2]

/-- What the fields of a key have to be. -/
structure ObjectKeyData.Proper (data : ObjectKeyData) : Prop where
  string_eq : data.string = keyString data.name data.time data.jobId data.fileExtension
  name_ne_nil : data.name ≠ []
  name_chars : ∀ c ∈ data.name, nameChar c = true
  utc : data.time.utcoffset = some 0
  seconds : data.time.microsecond = 0

/-- The validators accept fields which are proper. -/
theorem ObjectKeyData.Proper.valid {data : ObjectKeyData} (h : data.Proper) :
    data.valid = true := by
  obtain ⟨hname, hname'⟩ := notMem_of_nameChar h.name_chars
  obtain ⟨htime, htime'⟩ := notMem_of_nameChar (nameChar_of_isoformat h.utc h.seconds)
  obtain ⟨hjob, hjob'⟩ := notMem_of_nameChar (nameChar_of_uuidStr data.jobId)
  have hidChars : ∀ c ∈ data.name, idChar c = true := fun c hc =>
    ((Bool.and_eq_true _ _).mp (h.name_chars c hc)).1
  have hcore : keyString data.name data.time data.jobId data.fileExtension =
      (data.name ++ '_' :: (data.time.isoformat 'T' ++ '_' :: uuidStr data.jobId)) ++
        '.' :: data.fileExtension.value := by
    simp [keyString]
  have hcoreChars : ∀ c ∈ data.name ++ '_' :: (data.time.isoformat 'T' ++
      '_' :: uuidStr data.jobId), idChar c = true := by
    intro c hc
    simp only [List.mem_append, List.mem_cons] at hc
    rcases hc with hc | rfl | hc | rfl | hc
    · exact hidChars c hc
    · decide
    · exact ((Bool.and_eq_true _ _).mp (nameChar_of_isoformat h.utc h.seconds c hc)).1
    · decide
    · exact ((Bool.and_eq_true _ _).mp (nameChar_of_uuidStr data.jobId c hc)).1
  have hcorePoint : '.' ∉ data.name ++ '_' :: (data.time.isoformat 'T' ++
      '_' :: uuidStr data.jobId) := fun hmem => (idChar_ne (hcoreChars _ hmem)).1 rfl
  have hpoint : data.string.splitOn '.' = [data.name ++ '_' :: (data.time.isoformat 'T' ++
      '_' :: uuidStr data.jobId), data.fileExtension.value] := by
    rw [h.string_eq, hcore, List.splitOn_append_cons_self_of_not_mem hcorePoint,
      List.splitOn_eq_singleton data.fileExtension.point_notMem_value]
  have hparts : (data.name ++ '_' :: (data.time.isoformat 'T' ++
      '_' :: uuidStr data.jobId)).splitOn '_' =
        [data.name, data.time.isoformat 'T', uuidStr data.jobId] := by
    rw [List.splitOn_append_cons_self_of_not_mem hname,
      List.splitOn_append_cons_self_of_not_mem htime, List.splitOn_eq_singleton hjob]
  have hfirst : data.string.splitOn '_' = data.name :: data.time.isoformat 'T' ::
      (uuidStr data.jobId ++ '.' :: data.fileExtension.value).splitOn '_' := by
    rw [h.string_eq, keyString, List.splitOn_append_cons_self_of_not_mem hname,
      List.splitOn_append_cons_self_of_not_mem htime]
  have hcount : data.string.count '.' = 1 := by
    rw [h.string_eq, hcore, List.count_append, List.count_eq_zero_of_not_mem hcorePoint,
      List.count_cons_self, List.count_eq_zero_of_not_mem data.fileExtension.point_notMem_value]
  have hcount' : (data.name ++ '_' :: (data.time.isoformat 'T' ++
      '_' :: uuidStr data.jobId)).count '_' = 2 := by
    simp only [List.count_append, List.count_cons_self, List.count_eq_zero_of_not_mem hname,
      List.count_eq_zero_of_not_mem htime, List.count_eq_zero_of_not_mem hjob]
  have hpattern : stringMatchesPattern data.string = true := by
    unfold stringMatchesPattern
    dsimp only
    rw [hpoint, List.headD_cons, hcount, hcount', hparts]
    simp [datetimeOfText_isoformat h.utc h.seconds, jobIdOfText_uuidStr]
  refine decide_eq_true ⟨?_, hpattern, idString_of_all h.name_ne_nil hidChars, ?_, ?_, h.utc, ?_, ?_⟩
  · rw [h.string_eq, hcore, idString_extension_iff]
    exact ⟨by simp, hcoreChars⟩
  · rw [hfirst]
    rfl
  · rw [hfirst]
    rfl
  · rw [hpoint, List.headD_cons, hparts]
    rfl
  · rw [hpoint]
    rfl

/-- Fields which the validators accept are proper. -/
theorem ObjectKeyData.proper_of_valid {data : ObjectKeyData} (h : data.valid = true) :
    data.Proper := by
  obtain ⟨hstring, hpattern, hid, hname, htime, hutc, hjob, hext⟩ := of_decide_eq_true h
  unfold stringMatchesPattern at hpattern
  dsimp only at hpattern
  rw [Bool.and_eq_true, Bool.and_eq_true] at hpattern
  obtain ⟨⟨hcount, hcount'⟩, -⟩ := hpattern
  obtain ⟨core, ext, hsplit, hcore, hafter⟩ := exists_of_count_succ (of_decide_eq_true hcount)
  have hextPoint : '.' ∉ ext := List.count_eq_zero.mp hafter
  have hpoint : data.string.splitOn '.' = [core, ext] := by
    rw [hsplit, List.splitOn_append_cons_self_of_not_mem hcore, List.splitOn_eq_singleton hextPoint]
  rw [hpoint] at hext hjob hcount'
  rw [List.headD_cons] at hjob hcount'
  obtain rfl : ext = data.fileExtension.value := by simpa using hext
  obtain ⟨name, rest, hname', hnot, hrest⟩ := exists_of_count_succ (of_decide_eq_true hcount')
  obtain ⟨time, job, hrest', hnot', hjob'⟩ := exists_of_count_succ hrest
  have hjobNot : '_' ∉ job := List.count_eq_zero.mp hjob'
  subst hrest' hname'
  rw [List.splitOn_append_cons_self_of_not_mem hnot,
    List.splitOn_append_cons_self_of_not_mem hnot', List.splitOn_eq_singleton hjobNot] at hjob
  rw [hsplit, List.append_assoc, List.cons_append, List.append_assoc, List.cons_append,
    List.splitOn_append_cons_self_of_not_mem hnot] at hname htime
  rw [List.splitOn_append_cons_self_of_not_mem hnot'] at htime
  obtain rfl : name = data.name := by simpa using hname
  obtain rfl : time = data.time.isoformat 'T' := by simpa using htime
  obtain rfl : job = uuidStr data.jobId := by simpa using hjob
  rw [hsplit, idString_extension_iff] at hstring
  refine ⟨?_, ?_, fun c hc => ?_, hutc, ?_⟩
  · rw [hsplit]
    simp [keyString]
  · intro hnil
    rw [hnil] at hid
    exact absurd hid (by decide)
  · have hchar := hstring.2 c (List.mem_append_left _ hc)
    have hne : c ≠ '_' := fun heq => hnot (heq ▸ hc)
    rw [nameChar, hchar, Bool.true_and]
    exact decide_eq_true hne
  · refine @microsecond_eq_zero data.time 'T' fun hmem => hcore ?_
    exact List.mem_append_right _ (List.mem_cons_of_mem _ (List.mem_append_left _ hmem))

/-! ## Reading keys again -/

namespace ObjectKey

/-- Proper fields make a key. -/
theorem create_of_proper {data : ObjectKeyData} (h : data.Proper) :
    create data = .ok ⟨data, h.valid⟩ := dif_pos h.valid

/-- A created key has the given fields. -/
theorem toObjectKeyData_of_create {data : ObjectKeyData} {key : ObjectKey}
    (h : create data = .ok key) : key.toObjectKeyData = data := by
  unfold create at h
  split at h
  · rw [← Except.ok.inj h]
  · cases h

/-- The fields of a key are proper. -/
theorem proper (key : ObjectKey) : key.toObjectKeyData.Proper :=
  ObjectKeyData.proper_of_valid key.valid

/-- A key is created from its own fields. -/
theorem fromNameAndTimeAndJobId_self (key : ObjectKey) :
    fromNameAndTimeAndJobId key.name key.time key.jobId key.fileExtension = .ok key := by
  have heq : (⟨keyString key.name key.time key.jobId key.fileExtension, key.name, key.time,
      key.jobId, key.fileExtension⟩ : ObjectKeyData) = key.toObjectKeyData := by
    rw [← key.proper.string_eq]
  rw [fromNameAndTimeAndJobId, heq, create_of_proper key.proper]

/-- The key for custom objects. -/
theorem exists_toCustomObjectsObjectKey (key : ObjectKey) :
    ∃ custom, key.toCustomObjectsObjectKey = .ok custom ∧
      custom.fileExtension = .customObjectsPkl := by
  have hproper : (⟨keyString key.name key.time key.jobId .customObjectsPkl, key.name, key.time,
      key.jobId, .customObjectsPkl⟩ : ObjectKeyData).Proper :=
    ⟨rfl, key.proper.name_ne_nil, key.proper.name_chars, key.proper.utc, key.proper.seconds⟩
  exact ⟨_, create_of_proper hproper, rfl⟩

/-- A key with a plain extension is read again. -/
theorem fromString_of_plain {key : ObjectKey} (h : key.fileExtension ≠ .customObjectsPkl) :
    fromString key.string = .ok key := by
  have hproper := key.proper
  obtain ⟨htime, -⟩ := notMem_of_nameChar (nameChar_of_isoformat hproper.utc hproper.seconds)
  obtain ⟨hjob, hjob'⟩ := notMem_of_nameChar (nameChar_of_uuidStr key.jobId)
  have hext := key.fileExtension.underscore_mem_value_iff.not.mpr h
  have hlast : '_' ∉ uuidStr key.jobId ++ '.' :: key.fileExtension.value := by
    simp [hjob, hext]
  have hsplit : rsplitMax '_' 2 key.string = [key.name, key.time.isoformat 'T',
      uuidStr key.jobId ++ '.' :: key.fileExtension.value] :=
    rsplitMax_two_eq_triple_iff.mpr ⟨hproper.string_eq, htime, hlast⟩
  have hpoint : splitOnce '.' (uuidStr key.jobId ++ '.' :: key.fileExtension.value) =
      some (uuidStr key.jobId, key.fileExtension.value) :=
    splitOnce_eq_some_iff.mpr ⟨rfl, hjob'⟩
  rw [fromString, hsplit]
  dsimp only
  rw [hpoint]
  dsimp only
  rw [datetimeOfText_isoformat hproper.utc hproper.seconds, jobIdOfText_uuidStr,
    FileExtension.ofText_value]
  exact create_of_proper hproper

/-- A key for custom objects is not read again, since its extension has underscores. -/
theorem fromString_of_custom {key : ObjectKey} (h : key.fileExtension = .customObjectsPkl) :
    fromString key.string = .error .value := by
  have hstring := key.proper.string_eq
  have hext : FileExtension.customObjectsPkl.value =
      "custom".toList ++ '_' :: ("objects".toList ++ '_' :: "pkl".toList) := by
    decide
  rw [h, keyString, hext] at hstring
  have hsplit : rsplitMax '_' 2 key.string = [key.name ++ '_' :: (key.time.isoformat 'T' ++
      '_' :: (uuidStr key.jobId ++ '.' :: "custom".toList)), "objects".toList, "pkl".toList] := by
    refine rsplitMax_two_eq_triple_iff.mpr ⟨?_, by decide, by decide⟩
    rw [hstring]
    simp only [List.append_assoc, List.cons_append]
  rw [fromString, hsplit]
  rfl

/-- A key is read again exactly if it is not one for custom objects. -/
theorem fromString_string_iff (key : ObjectKey) :
    fromString key.string = .ok key ↔ key.fileExtension ≠ .customObjectsPkl := by
  constructor
  · intro h hcustom
    rw [fromString_of_custom hcustom] at h
    cases h
  · exact fromString_of_plain

/-- A constructed key is read again exactly if it is not one for custom objects; the key for custom
objects which belongs to it is never read again. -/
theorem fromString_of_fromNameAndTimeAndJobId {name : PyStr} {time : DateTime} {jobId : JobId}
    {fileExtension : FileExtension} {key : ObjectKey}
    (h : fromNameAndTimeAndJobId name time jobId fileExtension = .ok key) :
    (fromString key.string = .ok key ↔ fileExtension ≠ .customObjectsPkl) ∧
      ∃ custom, key.toCustomObjectsObjectKey = .ok custom ∧
        fromString custom.string = .error .value := by
  have hdata := toObjectKeyData_of_create h
  have hext : key.fileExtension = fileExtension := congrArg ObjectKeyData.fileExtension hdata
  refine ⟨hext ▸ key.fromString_string_iff, ?_⟩
  obtain ⟨custom, hcustom, hcustomExt⟩ := key.exists_toCustomObjectsObjectKey
  exact ⟨custom, hcustom, fromString_of_custom hcustomExt⟩

end ObjectKey

end Valid

/-! ## The two keys of a model with custom objects -/

/-- Tables for ASCII digits and formats written by `isoformat` only. -/
abbrev asciiTexts : PythonTexts := ⟨⟨fun _ => none, fun _ => false⟩, fun _ => none⟩

/-- Midnight at the beginning of 2022. -/
def newYear : DateTime where
  year := 2022
  month := 1
  day := 1
  hour := 0
  minute := 0
  second := 0
  microsecond := 0
  utcoffset := some 0
  date_valid := by decide
  time_valid := by decide
  utcoffset_valid := by decide

/-- The fields of a key for midnight. -/
def newYearKey (ext : FileExtension) : ObjectKeyData :=
  ⟨keyString ['A'] newYear ⟨0, by decide⟩ ext, ['A'], newYear, ⟨0, by decide⟩, ext⟩

/-- These fields fit together. -/
theorem newYearKey_proper (ext : FileExtension) : (newYearKey ext).Proper := by
  have hname : (newYearKey ext).name = ['A'] := rfl
  refine ⟨rfl, ?_, ?_, rfl, rfl⟩
  · rw [hname]
    exact List.cons_ne_nil _ _
  · rw [hname, List.forall_mem_singleton]
    decide

/-- The key for custom objects is constructed and not read again. -/
theorem newYearKey_custom_not_read :
    ∃ key, @ObjectKey.fromNameAndTimeAndJobId asciiTexts ['A'] newYear ⟨0, by decide⟩
        .customObjectsPkl = .ok key ∧
      @ObjectKey.fromString asciiTexts key.string = .error .value :=
  ⟨_, @ObjectKey.create_of_proper asciiTexts _ (newYearKey_proper .customObjectsPkl),
    @ObjectKey.fromString_of_custom asciiTexts _ rfl⟩

/-- The key for a pickled object is constructed and read again. -/
theorem newYearKey_pickle_read :
    ∃ key, @ObjectKey.fromNameAndTimeAndJobId asciiTexts ['A'] newYear ⟨0, by decide⟩ .pickle =
        .ok key ∧ @ObjectKey.fromString asciiTexts key.string = .ok key := by
  have hcreated := @ObjectKey.create_of_proper asciiTexts _ (newYearKey_proper .pickle)
  exact ⟨_, hcreated, (@ObjectKey.fromString_of_fromNameAndTimeAndJobId asciiTexts _ _ _ _ _
    hcreated).1.mpr (by decide)⟩

end HetidaDesigner
