import HetidaDesigner.Backend.ImportLookup
import HetidaDesigner.Store.NestedRevisions
import HetidaDesigner.Store.Selection

/-!
# Revisions with their dependencies

`get_multiple_transformation_revisions` of `persistence/dbservice/revision.py` selects revisions and
adds those which the rows of selected workflows name. Then it adds what the components among these
import. Imports are collected by their texts, and a text is never the id of a component, so a
component which is there already is added again if it is imported, and once more for every other
text.
-/

namespace HetidaDesigner

open Checks KeyedList Collecting Relation

section Functions

variable {V D : Type}

/-- `is_unused` -/
def Database.isUnused (db : Database V D) (transformationId : UUID) : Bool :=
  let containingWfIds := (db.findAllNestings transformationId).map fun nesting => nesting.workflowId
  db.revisions.all fun row => row.id ∉ containingWfIds ∨ row.state = .disabled

variable [UnicodeData] [DecidableEq V]

/-- Add what is nested in a workflow and not there yet. -/
def addNestedRevisions (db : Database V D) (uuid4 : TrafoKey → ℕ → UUID)
    (trList : List (Revision V D)) (tr : Revision V D) :
    Except StoreError (List (Revision V D)) :=
  match tr.type with
  | .component => .ok trList
  | .workflow => do
    let nested ← getAllNestedTransformationRevisions (fun id => uuid4 (.id id)) db tr.id
    return appendAllNew (fun trafo => trafo.id) trList (dictById (fun trafo => trafo.id) nested)

/-- `get_multiple_transformation_revisions`, with the criterion `unused`; nothing if the levels of
imports do not suffice. -/
def getMultipleTransformationRevisions (tools : CodeTools V D) (db : Database V D)
    (uuid4 : TrafoKey → ℕ → UUID) (levels : ℕ) (params : FilterParams) (unused : Bool) :
    Option (Except StoreError (List (Revision V D))) :=
  match selectMultipleTransformationRevisions (fun id => uuid4 (.id id)) db params with
  | .error error => some (.error error)
  | .ok selected =>
    let trList := if unused then selected.filter fun tr => db.isUnused tr.id else selected
    if params.includeDependencies then
      match trList.foldlM (addNestedRevisions db uuid4) trList with
      | .error error => some (.error error)
      | .ok trList =>
        (readComponentImportsRecursively tools (loadTrafo db uuid4) levels
          (trList.filter fun tr => tr.type = .component)).map fun imported =>
            imported.map fun imported => trList ++ imported
    else some (.ok trList)

end Functions

/-! ## What should be returned -/

section Closure

variable {V D : Type} (tools : CodeTools V D) (db : Database V D) (params : FilterParams)
  (unused : Bool) (below : UUID → UUID → Prop)

/-- A stored revision meets the criteria of a filter. -/
def Database.Selects (id : UUID) : Prop :=
  ∃ row, db.find id = some row ∧ params.allows row = true ∧
    (unused = true → db.isUnused id = true)

/-- A revision is selected, or below a selected one. -/
def Database.Covers (id : UUID) : Prop :=
  db.Selects params unused id ∨ ∃ selected, db.Selects params unused selected ∧ below selected id

/-- A text is imported, directly or through others, by what is covered. -/
def Database.ImportedByCovered (found : ImportedText) : Prop :=
  ∃ id, db.Covers params unused below id ∧ db.Imported tools [id] found

/-- A revision is covered, or imported by what is covered. -/
def Database.Exports (id : UUID) : Prop :=
  db.Covers params unused below id ∨
    ∃ found, db.ImportedByCovered tools params unused below found ∧ found.id = id

/-- The rows of a workflow name a revision. -/
def Database.NamedByWorkflow (workflowId id : UUID) : Prop :=
  (∃ row, db.find workflowId = some row ∧ row.type = .workflow) ∧ db.Named workflowId id

/-- The selected revisions, those contained in them and whatever these import are returned, each of
them once. -/
structure ExportsEachOnce [UnicodeData] [DecidableEq V] (result : List (Revision V D)) : Prop where
  stored : ∀ trafo ∈ result, ∃ draws, db.selectTrById draws trafo.id = .ok trafo
  once : (result.map fun trafo => trafo.id).Nodup
  exactly : ∀ id, id ∈ result.map (fun trafo => trafo.id) ↔
    db.Exports tools params unused (TransGen db.Contains) id

/-- The rows of workflows lead to the same revisions as their contents, no component that is covered
is imported, and each imported component is imported under one text only. -/
structure Database.ImportsNewOnly : Prop where
  sameBelow : ∀ id, db.Exports tools params unused db.NamedByWorkflow id ↔
    db.Exports tools params unused (TransGen db.Contains) id
  notCovered : ∀ found, db.ImportedByCovered tools params unused db.NamedByWorkflow found →
    ¬ db.Covers params unused db.NamedByWorkflow found.id
  oneText : ∀ found found', db.ImportedByCovered tools params unused db.NamedByWorkflow found →
    db.ImportedByCovered tools params unused db.NamedByWorkflow found' → found.id = found'.id →
      found = found'

/-- All dependencies can be loaded: what is selected, what the rows of selected workflows name, and
whatever the components among these import. -/
structure Database.DependenciesExist [UnicodeData] [DecidableEq V]
    (uuid4 : TrafoKey → ℕ → UUID) : Prop where
  selected : ∀ row ∈ db.revisions, params.allows row = true →
    ∃ revision, row.validate (uuid4 (.id row.id)) = .ok revision
  named : ∀ id, db.Covers params unused db.NamedByWorkflow id →
    ∃ revision, db.selectTrById (uuid4 (.id id)) id = .ok revision
  components : ∀ id row, db.Covers params unused db.NamedByWorkflow id → db.find id = some row →
    row.type = .component → db.PassesImportCheck tools id
  imported : ∀ found, db.ImportedByCovered tools params unused db.NamedByWorkflow found →
    (∃ trafo, db.selectTrById (uuid4 (.text found)) found.id = .ok trafo) ∧
      db.PassesImportCheck tools found.id

end Closure

/-! ## Lists of loaded revisions -/

/-- Revisions with some ids, each of them once, as they are loaded. -/
structure Loaded {V D : Type} [UnicodeData] [DecidableEq V] (db : Database V D)
    (uuid4 : TrafoKey → ℕ → UUID) (trafos : List (Revision V D)) (P : UUID → Prop) : Prop where
  loaded : ∀ trafo ∈ trafos, db.selectTrById (uuid4 (.id trafo.id)) trafo.id = .ok trafo
  once : (trafos.map fun trafo => trafo.id).Nodup
  ids : ∀ id, id ∈ trafos.map (fun trafo => trafo.id) ↔ P id

section Lists

variable [UnicodeData] {V D : Type} [DecidableEq V] {db : Database V D}
  {uuid4 : TrafoKey → ℕ → UUID} {params : FilterParams} {unused : Bool} {P : UUID → Prop}
  {trafos result : List (Revision V D)}

/-- Ids with the same property. -/
theorem Loaded.congr {Q : UUID → Prop} (h : Loaded db uuid4 trafos P) (hsame : ∀ id, P id ↔ Q id) :
    Loaded db uuid4 trafos Q :=
  ⟨h.loaded, h.once, fun id => (h.ids id).trans (hsame id)⟩

/-- Some of the revisions. -/
theorem Loaded.filter (h : Loaded db uuid4 trafos P) {p : Revision V D → Bool} {Q : UUID → Prop}
    (hp : ∀ trafo ∈ trafos, p trafo = true ↔ Q trafo.id) :
    Loaded db uuid4 (trafos.filter p) fun id => P id ∧ Q id := by
  refine ⟨fun trafo htrafo => h.loaded trafo (List.mem_of_mem_filter htrafo),
    filter_nodup h.once p, fun id => ?_⟩
  rw [List.mem_map, ← h.ids, List.mem_map]
  constructor
  · rintro ⟨trafo, htrafo, rfl⟩
    obtain ⟨hmem, hkeep⟩ := List.mem_filter.mp htrafo
    exact ⟨⟨trafo, hmem, rfl⟩, (hp trafo hmem).mp hkeep⟩
  · rintro ⟨⟨trafo, hmem, rfl⟩, hQ⟩
    exact ⟨trafo, List.mem_filter.mpr ⟨hmem, (hp trafo hmem).mpr hQ⟩, rfl⟩

/-- What is selected by the criteria but `unused`. -/
theorem loaded_of_select
    (h : selectMultipleTransformationRevisions (fun id => uuid4 (.id id)) db params = .ok trafos) :
    Loaded db uuid4 trafos fun id => ∃ row, db.find id = some row ∧ params.allows row = true := by
  have hids : trafos.map (fun trafo => trafo.id) =
      (db.revisions.filter params.allows).map fun row => row.id :=
    map_eq_of_mapM h fun row trafo hvalid =>
      (TransformationRevision.validate_releaseData (mapError_eq_ok.mp hvalid)).1
  refine ⟨fun trafo htrafo => ?_, ?_, fun id => ?_⟩
  · obtain ⟨row, hrow, hvalid⟩ := exists_argument_of_mapM h htrafo
    obtain ⟨hid, -⟩ := TransformationRevision.validate_releaseData (mapError_eq_ok.mp hvalid)
    rw [hid, Database.selectTrById, Database.find_of_mem (List.mem_of_mem_filter hrow)]
    exact hvalid
  · rw [hids]
    exact filter_nodup db.ids_unique _
  · rw [hids, List.mem_map]
    constructor
    · rintro ⟨row, hrow, rfl⟩
      obtain ⟨hmem, hallows⟩ := List.mem_filter.mp hrow
      exact ⟨row, Database.find_of_mem hmem, hallows⟩
    · rintro ⟨row, hrow, hallows⟩
      obtain ⟨hmem, hid⟩ := Database.find_eq_some hrow
      exact ⟨row, List.mem_filter.mpr ⟨hmem, hallows⟩, hid⟩

/-- What is selected. -/
theorem loaded_of_select_unused
    (h : selectMultipleTransformationRevisions (fun id => uuid4 (.id id)) db params = .ok trafos) :
    Loaded db uuid4 (if unused then trafos.filter fun tr => db.isUnused tr.id else trafos)
      (db.Selects params unused) := by
  have hselected := loaded_of_select h
  cases unused with
  | false =>
    refine hselected.congr fun id => ?_
    simp [Database.Selects]
  | true =>
    rw [if_pos rfl]
    have hfilter := @Loaded.filter _ _ _ _ _ _ _ _ hselected (fun tr => db.isUnused tr.id)
      (fun id => db.isUnused id = true) fun _ _ => Iff.rfl
    refine hfilter.congr fun id => ?_
    simp only [Database.Selects, true_imp_iff]
    constructor
    · rintro ⟨⟨row, hrow, hallows⟩, hunused⟩
      exact ⟨row, hrow, hallows, hunused⟩
    · rintro ⟨row, hrow, hallows, hunused⟩
      exact ⟨⟨row, hrow, hallows⟩, hunused⟩

/-- A loaded revision has the type of its row. -/
theorem exists_row_of_loaded {draws : ℕ → UUID} {id : UUID} {trafo : Revision V D}
    (h : db.selectTrById draws id = .ok trafo) :
    ∃ row, db.find id = some row ∧ row.type = trafo.type := by
  obtain ⟨row, hrow, -⟩ := Database.selectTrById_eq_ok.mp h
  obtain ⟨-, hshape⟩ := Database.shape_of_select h
  rw [Database.shape, hrow] at hshape
  exact ⟨row, hrow, congrArg Shape.type (Option.some.inj hshape)⟩

/-- The revisions which the rows of a workflow name. -/
theorem loaded_of_nested {id : UUID} {nested : List (Revision V D)}
    (h : getAllNestedTransformationRevisions (fun id => uuid4 (.id id)) db id = .ok nested) :
    Loaded db uuid4 (dictById (fun trafo => trafo.id) nested) (db.Named id) := by
  refine ⟨fun trafo htrafo => ?_, dictById_nodup _ _, fun other => ?_⟩
  · obtain ⟨nesting, -, hselect⟩ := exists_argument_of_mapM h (mem_of_mem_dictById htrafo)
    obtain ⟨hid, -⟩ := Database.shape_of_select hselect
    rw [hid]
    exact hselect
  · constructor
    · intro hother
      obtain ⟨trafo, htrafo, rfl⟩ := List.mem_map.mp hother
      obtain ⟨nesting, hnesting, hselect⟩ :=
        exists_argument_of_mapM h (mem_of_mem_dictById htrafo)
      obtain ⟨hmem, hworkflow⟩ := Database.mem_findAllNestedTransformationRevisions.mp hnesting
      exact ⟨nesting, hmem, hworkflow, (Database.shape_of_select hselect).1.symm⟩
    · rintro ⟨nesting, hmem, hworkflow, rfl⟩
      obtain ⟨trafo, htrafo, hselect⟩ := exists_of_mapM h
        (Database.mem_findAllNestedTransformationRevisions.mpr ⟨hmem, hworkflow⟩)
      obtain ⟨trafo', htrafo', hsame⟩ : ∃ trafo' ∈ dictById (fun trafo => trafo.id) nested,
          trafo'.id = trafo.id := exists_mem_dictById htrafo
      exact List.mem_map.mpr ⟨trafo', htrafo', hsame.trans (Database.shape_of_select hselect).1⟩

/-- One round of the loop adds what the rows of a workflow name. -/
theorem loaded_of_addNestedRevisions (h : Loaded db uuid4 trafos P) {tr : Revision V D}
    (htr : db.selectTrById (uuid4 (.id tr.id)) tr.id = .ok tr)
    (hok : addNestedRevisions db uuid4 trafos tr = .ok result) :
    Loaded db uuid4 result fun id => P id ∨ db.NamedByWorkflow tr.id id := by
  obtain ⟨row, hrow, htype⟩ := exists_row_of_loaded htr
  unfold addNestedRevisions at hok
  split at hok
  · rename_i hcomponent
    obtain rfl := Except.ok.inj hok
    refine h.congr fun id => (or_iff_left ?_).symm
    rintro ⟨⟨row', hrow', hworkflow⟩, -⟩
    obtain rfl := Option.some.inj (hrow.symm.trans hrow')
    exact TrafoType.noConfusion (hworkflow.symm.trans (htype.trans hcomponent))
  · rename_i hworkflow
    obtain ⟨nested, hnested, hok⟩ := bind_eq_ok.mp hok
    obtain rfl := return_eq_ok.mp hok
    have hnew := loaded_of_nested hnested
    refine ⟨fun trafo htrafo => ?_, appendAllNew_nodup h.once _, fun id => ?_⟩
    · exact (mem_of_mem_appendAllNew htrafo).elim (h.loaded trafo) (hnew.loaded trafo)
    · rw [mem_map_appendAllNew_iff, h.ids, hnew.ids]
      refine or_congr_right ⟨fun hnamed => ⟨⟨row, hrow, htype.trans hworkflow⟩, hnamed⟩, ?_⟩
      exact fun hnamed => hnamed.2

/-- The loop adds what the rows of all workflows name. -/
theorem loaded_of_foldlM (h : Loaded db uuid4 trafos P) {trs : List (Revision V D)}
    (htrs : ∀ tr ∈ trs, db.selectTrById (uuid4 (.id tr.id)) tr.id = .ok tr)
    (hok : trs.foldlM (addNestedRevisions db uuid4) trafos = .ok result) :
    Loaded db uuid4 result fun id => P id ∨ ∃ tr ∈ trs, db.NamedByWorkflow tr.id id := by
  induction trs generalizing trafos P with
  | nil =>
    obtain rfl := return_eq_ok.mp hok
    exact h.congr fun id => by simp
  | cons tr rest ih =>
    rw [List.foldlM_cons] at hok
    obtain ⟨next, hnext, hok⟩ := bind_eq_ok.mp hok
    have hstep := loaded_of_addNestedRevisions h (htrs tr List.mem_cons_self) hnext
    refine (ih hstep (fun tr htr => htrs tr (List.mem_cons_of_mem _ htr)) hok).congr fun id => ?_
    simp only [List.mem_cons, exists_eq_or_imp, or_assoc]

/-- The loop succeeds if all that is named can be loaded. -/
theorem exists_foldlM {trs : List (Revision V D)}
    (hrows : ∀ tr ∈ trs, db.selectTrById (uuid4 (.id tr.id)) tr.id = .ok tr)
    (hnamed : ∀ tr ∈ trs, ∀ id, db.NamedByWorkflow tr.id id →
      ∃ revision, db.selectTrById (uuid4 (.id id)) id = .ok revision) :
    ∃ result, trs.foldlM (addNestedRevisions db uuid4) trafos = .ok result := by
  induction trs generalizing trafos with
  | nil => exact ⟨trafos, rfl⟩
  | cons tr rest ih =>
    obtain ⟨next, hnext⟩ : ∃ next, addNestedRevisions db uuid4 trafos tr = .ok next := by
      obtain ⟨row, hrow, htype⟩ := exists_row_of_loaded (hrows tr List.mem_cons_self)
      unfold addNestedRevisions
      split
      · exact ⟨trafos, rfl⟩
      · rename_i hworkflow
        obtain ⟨nested, hnested⟩ : ∃ nested, getAllNestedTransformationRevisions
            (fun id => uuid4 (.id id)) db tr.id = .ok nested := by
          refine exists_mapM fun nesting hnesting => ?_
          obtain ⟨hmem, hid⟩ := Database.mem_findAllNestedTransformationRevisions.mp hnesting
          exact hnamed tr List.mem_cons_self _
            ⟨⟨row, hrow, htype.trans hworkflow⟩, nesting, hmem, hid, rfl⟩
        exact ⟨_, bind_eq_ok.mpr ⟨nested, hnested, rfl⟩⟩
    obtain ⟨result, hresult⟩ := ih (fun tr htr => hrows tr (List.mem_cons_of_mem _ htr))
      fun tr htr => hnamed tr (List.mem_cons_of_mem _ htr)
    exact ⟨result, by rw [List.foldlM_cons]; exact bind_eq_ok.mpr ⟨next, hnext, hresult⟩⟩

end Lists

/-! ## What components import -/

section Imports

variable {V D : Type} {tools : CodeTools V D} {db : Database V D}

/-- What some components import is imported by one of them. -/
theorem imported_iff_exists {ids : List UUID} {found : ImportedText} :
    db.Imported tools ids found ↔ ∃ id ∈ ids, db.Imported tools [id] found := by
  constructor
  · intro h
    induction h with
    | direct hid himports => exact ⟨_, hid, .direct List.mem_cons_self himports⟩
    | further _ himports ih =>
      obtain ⟨id, hid, hvia⟩ := ih
      exact ⟨id, hid, .further hvia himports⟩
  · rintro ⟨id, hid, h⟩
    induction h with
    | direct hmem himports => exact .direct (List.mem_singleton.mp hmem ▸ hid) himports
    | further _ himports ih => exact .further ih himports

/-- A revision from which something is imported has code. -/
theorem exists_code_of_imported {id : UUID} {found : ImportedText}
    (h : db.Imported tools [id] found) : ∃ shape ∈ db.shape id, ∃ code, shape.code = some code := by
  induction h with
  | direct hmem himports =>
    obtain rfl := List.mem_singleton.mp hmem
    obtain ⟨shape, hshape, code, hcode, -⟩ := himports
    exact ⟨shape, hshape, code, hcode⟩
  | further _ _ ih => exact ih

variable [UnicodeData] [DecidableEq V]

/-- A loaded revision with code is a component. -/
theorem type_of_code {draws : ℕ → UUID} {id : UUID} {trafo : Revision V D} {shape : Shape}
    {code : PyStr} (h : db.selectTrById draws id = .ok trafo) (hshape : db.shape id = some shape)
    (hcode : shape.code = some code) : trafo.type = .component := by
  obtain ⟨row, hrow, hvalid⟩ := Database.selectTrById_eq_ok.mp h
  obtain ⟨-, hshape'⟩ := Database.shape_of_select h
  obtain rfl := Option.some.inj (hshape.symm.trans hshape')
  unfold TransformationRevision.validate TransformationRevision.validateWith at hvalid
  simp only [require_bind_eq_ok] at hvalid
  obtain ⟨-, -, -, -, -, hvalid⟩ := hvalid
  split at hvalid
  · rename_i htype _
    obtain rfl := return_eq_ok.mp hvalid
    exact htype
  · obtain ⟨content, -, hvalid⟩ := bind_eq_ok.mp hvalid
    obtain rfl := return_eq_ok.mp hvalid
    cases hcode
  · cases hvalid

end Imports

/-! ## What is returned -/

section Results

variable [UnicodeData] {V D : Type} [DecidableEq V] {tools : CodeTools V D} {db : Database V D}
  {uuid4 : TrafoKey → ℕ → UUID} {params : FilterParams} {unused : Bool}
  {trafos imported : List (Revision V D)} {levels : ℕ}

omit [UnicodeData] [DecidableEq V] in
/-- Components are looked for among the given revisions. -/
theorem readComponentImports_filter (load : TrafoKey → Except StoreError (Revision V D)) :
    readComponentImportsRecursively tools load levels
        (trafos.filter fun trafo => trafo.type = .component) =
      readComponentImportsRecursively tools load levels trafos := by
  unfold readComponentImportsRecursively
  rw [List.filter_filter]
  simp only [Bool.and_self]

/-- What is covered, and what is imported by it. -/
theorem importsStored_of_loaded (hexist : db.DependenciesExist tools params unused uuid4)
    (hloaded : Loaded db uuid4 trafos (db.Covers params unused db.NamedByWorkflow)) :
    (∀ found, db.Imported tools
        ((trafos.filter fun trafo => trafo.type = .component).map fun trafo => trafo.id) found ↔
          db.ImportedByCovered tools params unused db.NamedByWorkflow found) ∧
      db.ImportsStored tools uuid4 (trafos.filter fun trafo => trafo.type = .component) := by
  have himported (found : ImportedText) : db.Imported tools
      ((trafos.filter fun trafo => trafo.type = .component).map fun trafo => trafo.id) found ↔
        db.ImportedByCovered tools params unused db.NamedByWorkflow found := by
    rw [imported_iff_exists]
    constructor
    · rintro ⟨id, hid, hfound⟩
      have hmem := List.map_subset _ List.filter_sublist.subset hid
      exact ⟨id, (hloaded.ids id).mp hmem, hfound⟩
    · rintro ⟨id, hcovered, hfound⟩
      obtain ⟨trafo, htrafo, rfl⟩ := List.mem_map.mp ((hloaded.ids id).mpr hcovered)
      obtain ⟨shape, hshape, code, hcode⟩ := exists_code_of_imported hfound
      have htype := type_of_code (hloaded.loaded trafo htrafo) hshape hcode
      exact ⟨_, List.mem_map_of_mem (List.mem_filter.mpr ⟨htrafo, decide_eq_true htype⟩), hfound⟩
  refine ⟨himported, fun trafo htrafo => ?_, fun found hfound =>
    hexist.imported found ((himported found).mp hfound)⟩
  obtain ⟨hmem, htype⟩ := List.mem_filter.mp htrafo
  have hselect := hloaded.loaded trafo hmem
  obtain ⟨row, hrow, hrowType⟩ := exists_row_of_loaded hselect
  exact ⟨⟨_, hselect⟩, hexist.components _ row
    ((hloaded.ids _).mp (List.mem_map_of_mem hmem)) hrow
      (hrowType.trans (of_decide_eq_true htype))⟩

/-- Whether a search for imports returns what it was given. -/
theorem notGiven_iff_notImported
    (hstored : db.ImportsStored tools uuid4 (trafos.filter fun trafo => trafo.type = .component))
    (h : readComponentImportsRecursively tools (loadTrafo db uuid4) levels trafos =
      some (.ok imported)) :
    (∀ trafo ∈ imported, ∀ given ∈ trafos, given.type = .component → trafo.id ≠ given.id) ↔
      ∀ given ∈ trafos, given.type = .component → ∀ found, db.Imported tools
        ((trafos.filter fun trafo => trafo.type = .component).map fun trafo => trafo.id) found →
          found.id ≠ given.id := by
  rw [← readComponentImports_filter] at h
  obtain ⟨texts, -, hmem, hids⟩ := exists_texts_of_read hstored h
  have hiff (id : UUID) : (∃ trafo ∈ imported, trafo.id = id) ↔ ∃ found, db.Imported tools
      ((trafos.filter fun trafo => trafo.type = .component).map fun trafo => trafo.id) found ∧
        found.id = id := by
    rw [← List.mem_map, hids, List.mem_map]
    simp only [hmem]
  constructor
  · intro hnot given hgiven htype found hfound heq
    obtain ⟨trafo, htrafo, hid⟩ := (hiff given.id).mpr ⟨found, hfound, heq⟩
    exact hnot trafo htrafo given hgiven htype hid
  · intro hnot trafo htrafo given hgiven htype heq
    obtain ⟨found, hfound, hid⟩ := (hiff given.id).mp ⟨trafo, htrafo, heq⟩
    exact hnot given hgiven htype found hfound hid

/-- The revisions to which imports are added. -/
theorem loaded_covered {selected : List (Revision V D)}
    (hselected : Loaded db uuid4 selected (db.Selects params unused))
    (h : selected.foldlM (addNestedRevisions db uuid4) selected = .ok trafos) :
    Loaded db uuid4 trafos (db.Covers params unused db.NamedByWorkflow) := by
  refine (loaded_of_foldlM hselected hselected.loaded h).congr fun id => or_congr_right ?_
  constructor
  · rintro ⟨tr, htr, hnamed⟩
    exact ⟨tr.id, (hselected.ids _).mp (List.mem_map_of_mem htr), hnamed⟩
  · rintro ⟨other, hother, hnamed⟩
    obtain ⟨tr, htr, rfl⟩ := List.mem_map.mp ((hselected.ids other).mpr hother)
    exact ⟨tr, htr, hnamed⟩

/-- A successful export has the covered revisions and what is imported by them. -/
theorem getMultiple_eq_ok (hdependencies : params.includeDependencies = true)
    {result : List (Revision V D)}
    (h : getMultipleTransformationRevisions tools db uuid4 levels params unused =
      some (.ok result)) :
    ∃ trafos imported, Loaded db uuid4 trafos (db.Covers params unused db.NamedByWorkflow) ∧
      readComponentImportsRecursively tools (loadTrafo db uuid4) levels
        (trafos.filter fun trafo => trafo.type = .component) = some (.ok imported) ∧
      result = trafos ++ imported := by
  unfold getMultipleTransformationRevisions at h
  split at h
  · simp at h
  · rename_i selected hselect
    rw [if_pos hdependencies] at h
    split at h
    · simp at h
    · rename_i trafos htrafos
      obtain ⟨read, hread, hmap⟩ := Option.map_eq_some_iff.mp h
      obtain ⟨imported, rfl, rfl⟩ := map_eq_ok.mp hmap
      exact ⟨trafos, imported, loaded_covered (loaded_of_select_unused hselect) htrafos, hread, rfl⟩

/-- If all dependencies exist, the export ends with a result. -/
theorem exists_getMultiple (hdependencies : params.includeDependencies = true)
    (hexist : db.DependenciesExist tools params unused uuid4) :
    ∃ enough, ∀ levels, enough ≤ levels → ∃ result,
      getMultipleTransformationRevisions tools db uuid4 levels params unused =
        some (.ok result) := by
  obtain ⟨selected, hselect⟩ : ∃ selected,
      selectMultipleTransformationRevisions (fun id => uuid4 (.id id)) db params =
        .ok selected := by
    refine exists_mapM fun row hrow => ?_
    obtain ⟨hmem, hallows⟩ := List.mem_filter.mp hrow
    obtain ⟨revision, hvalid⟩ := hexist.selected row hmem hallows
    exact ⟨revision, mapError_eq_ok.mpr hvalid⟩
  have hselected := @loaded_of_select_unused _ _ _ _ _ _ _ unused _ hselect
  obtain ⟨trafos, htrafos⟩ := @exists_foldlM _ _ _ _ _ _ _ _ hselected.loaded
    fun tr htr id hnamed => hexist.named id
      (Or.inr ⟨tr.id, (hselected.ids _).mp (List.mem_map_of_mem htr), hnamed⟩)
  obtain ⟨-, hstored⟩ := importsStored_of_loaded hexist (loaded_covered hselected htrafos)
  obtain ⟨enough, henough⟩ := exists_readComponentImports hstored
  refine ⟨enough, fun levels hlevels => ?_⟩
  obtain ⟨imported, hread⟩ := henough levels hlevels
  refine ⟨trafos ++ imported, ?_⟩
  unfold getMultipleTransformationRevisions
  rw [hselect]
  dsimp only
  rw [if_pos hdependencies, htrafos]
  dsimp only
  rw [hread]
  rfl

/-- Whether the result is right depends on what is imported. -/
theorem exportsEachOnce_iff (hdependencies : params.includeDependencies = true)
    (hexist : db.DependenciesExist tools params unused uuid4) {result : List (Revision V D)}
    (h : getMultipleTransformationRevisions tools db uuid4 levels params unused =
      some (.ok result)) :
    ExportsEachOnce tools db params unused result ↔ db.ImportsNewOnly tools params unused := by
  obtain ⟨trafos, imported, hloaded, hread, rfl⟩ := getMultiple_eq_ok hdependencies h
  obtain ⟨himported, hstored⟩ := importsStored_of_loaded hexist hloaded
  obtain ⟨texts, htexts, hmem, hids⟩ := exists_texts_of_read hstored hread
  have hmem' (found : ImportedText) : found ∈ texts ↔
      db.ImportedByCovered tools params unused db.NamedByWorkflow found :=
    (hmem found).trans (himported found)
  have hexported (id : UUID) : id ∈ (trafos ++ imported).map (fun trafo => trafo.id) ↔
      db.Exports tools params unused db.NamedByWorkflow id := by
    rw [List.map_append, List.mem_append, hloaded.ids, hids, List.mem_map]
    simp only [hmem', Database.Exports]
  have honce : ((trafos ++ imported).map fun trafo => trafo.id).Nodup ↔
      (∀ found ∈ texts, found.id ∉ trafos.map fun trafo => trafo.id) ∧
        ∀ found ∈ texts, ∀ found' ∈ texts, found.id = found'.id → found = found' := by
    rw [List.map_append, hids, List.nodup_append]
    constructor
    · rintro ⟨-, hnodup, hdisjoint⟩
      exact ⟨fun found hfound hid => hdisjoint _ hid _ (List.mem_map_of_mem hfound) rfl,
        fun found hfound found' hfound' => List.inj_on_of_nodup_map hnodup hfound hfound'⟩
    · rintro ⟨hnot, hinj⟩
      refine ⟨hloaded.once, htexts.map_on hinj, ?_⟩
      rintro id hid id' hid' rfl
      obtain ⟨found, hfound, rfl⟩ := List.mem_map.mp hid'
      exact hnot found hfound hid
  constructor
  · rintro ⟨-, hnodup, hexactly⟩
    obtain ⟨hnot, hinj⟩ := honce.mp hnodup
    refine ⟨fun id => (hexported id).symm.trans (hexactly id), fun found hfound hcovered => ?_,
      fun found found' hfound hfound' => hinj found ((hmem' _).mpr hfound) found'
        ((hmem' _).mpr hfound')⟩
    exact hnot found ((hmem' _).mpr hfound) ((hloaded.ids _).mpr hcovered)
  · rintro ⟨hsame, hnot, hinj⟩
    refine ⟨fun trafo htrafo => ?_, honce.mpr ⟨fun found hfound hid => ?_,
      fun found hfound found' hfound' => hinj found found' ((hmem' _).mp hfound)
        ((hmem' _).mp hfound')⟩, fun id => (hexported id).trans (hsame id)⟩
    · rcases List.mem_append.mp htrafo with hbase | hnew
      · exact ⟨_, hloaded.loaded trafo hbase⟩
      · obtain ⟨found, -, hselect⟩ := imported_of_read hstored hread hnew
        rw [(Database.shape_of_select hselect).1]
        exact ⟨_, hselect⟩
    · exact hnot found ((hmem' _).mp hfound) ((hloaded.ids _).mp hid)

end Results

/-- Parameters which select revisions by their ids, with what these depend on. -/
def withDependencies (ids : List UUID) : FilterParams where
  type := none
  state := none
  categories := none
  categoryPrefix := none
  revisionGroupId := none
  ids := some ids
  names := none
  includeDeprecated := true
  includeDependencies := true

/-- The component 1 imports the component 10. -/
abbrev importDb : Database ℤ Unit := importingDb (uuidStr 10)

/-- The revisions which are returned for some ids. -/
abbrev exportFrom (ids : List UUID) : Option (Except StoreError (List (Revision ℤ Unit))) :=
  @getMultipleTransformationRevisions ℤ Unit asciiOnly _ spellingTools importDb plainDraws 3
    (withDependencies ids) false

/-- The stored revisions. -/
theorem eq_of_find_importDb {id : UUID} {row : Revision ℤ Unit} (h : importDb.find id = some row) :
    id = 10 ∧ row = importedTen ∨ id = 1 ∧ row = importing (uuidStr 10) := by
  obtain ⟨hmem, rfl⟩ := Database.find_eq_some h
  rcases List.mem_cons.mp hmem with rfl | hmem
  · exact Or.inl ⟨rfl, rfl⟩
  · obtain rfl := List.mem_singleton.mp hmem
    exact Or.inr ⟨rfl, rfl⟩

/-- Both components pass the check of imports. -/
theorem passesImportCheck_importDb {id : UUID} {row : Revision ℤ Unit}
    (h : importDb.find id = some row) : importDb.PassesImportCheck spellingTools id := by
  have hown : getGlobalComponentImports spellingTools (importOf (uuidStr 10)) =
      .ok [⟨uuidStr 10, 10⟩] := by decide +kernel
  have hother : getGlobalComponentImports spellingTools "pass\n".toList = .ok [] := by
    decide +kernel
  rcases eq_of_find_importDb h with ⟨rfl, -⟩ | ⟨rfl, -⟩
  · exact ⟨_, rfl, rfl, _, rfl, _, hother⟩
  · exact ⟨_, rfl, rfl, _, rfl, _, hown⟩

/-- Only the component 10 is imported. -/
theorem imported_importDb {ids : List UUID} {found : ImportedText}
    (h : importDb.Imported spellingTools ids found) : found = ⟨uuidStr 10, 10⟩ := by
  have hown : getGlobalComponentImports spellingTools (importOf (uuidStr 10)) =
      .ok [⟨uuidStr 10, 10⟩] := by decide +kernel
  have hother : getGlobalComponentImports spellingTools "pass\n".toList = .ok [] := by
    decide +kernel
  obtain ⟨id, shape, hshape, code, hcode, imports, himports, hmem⟩ :
      ∃ id, importDb.CodeImports spellingTools id found := by
    cases h with
    | direct _ himports => exact ⟨_, himports⟩
    | further _ himports => exact ⟨_, himports⟩
  obtain ⟨row, hrow, rfl⟩ := Option.map_eq_some_iff.mp hshape
  rcases eq_of_find_importDb hrow with ⟨-, rfl⟩ | ⟨-, rfl⟩
  · obtain rfl := Option.some.inj hcode
    obtain rfl := Except.ok.inj (hother.symm.trans himports)
    exact absurd hmem List.not_mem_nil
  · obtain rfl := Option.some.inj hcode
    obtain rfl := Except.ok.inj (hown.symm.trans himports)
    exact List.mem_singleton.mp hmem

/-- All dependencies exist. -/
theorem dependenciesExist_importDb (ids : List UUID) :
    @Database.DependenciesExist ℤ Unit spellingTools importDb (withDependencies ids) false
      asciiOnly _ plainDraws := by
  have hten : @Database.selectTrById ℤ Unit asciiOnly _ importDb (uuid4Above 1000) 10 =
      .ok importedTen := by decide +kernel
  have hone : @Database.selectTrById ℤ Unit asciiOnly _ importDb (uuid4Above 1000) 1 =
      .ok (importing (uuidStr 10)) := by decide +kernel
  have hcovered (id : UUID) (h : importDb.Covers (withDependencies ids) false
      importDb.NamedByWorkflow id) : ∃ row, importDb.find id = some row := by
    rcases h with ⟨row, hrow, -⟩ | ⟨-, -, -, nesting, hnesting, -⟩
    · exact ⟨row, hrow⟩
    · exact absurd hnesting List.not_mem_nil
  refine @Database.DependenciesExist.mk ℤ Unit _ _ _ _ asciiOnly _ _ ?_ ?_ ?_ ?_
  · intro row hrow _
    rcases List.mem_cons.mp hrow with rfl | hrow
    · exact ⟨importedTen, by decide +kernel⟩
    · obtain rfl := List.mem_singleton.mp hrow
      exact ⟨importing (uuidStr 10), by decide +kernel⟩
  · intro id hid
    obtain ⟨row, hrow⟩ := hcovered id hid
    rcases eq_of_find_importDb hrow with ⟨rfl, -⟩ | ⟨rfl, -⟩
    · exact ⟨_, hten⟩
    · exact ⟨_, hone⟩
  · exact fun id row _ hrow _ => passesImportCheck_importDb hrow
  · rintro found ⟨id, -, hfound⟩
    obtain rfl := imported_importDb hfound
    exact ⟨⟨_, hten⟩, passesImportCheck_importDb (show importDb.find 10 = some importedTen from rfl)⟩

/-- Neither the rows of workflows nor their contents lead anywhere. -/
theorem below_importDb (id id' : UUID) :
    ¬ importDb.NamedByWorkflow id id' ∧ ¬ TransGen importDb.Contains id id' := by
  constructor
  · rintro ⟨-, nesting, hnesting, -⟩
    exact absurd hnesting List.not_mem_nil
  · intro hbelow
    obtain ⟨next, ⟨ref, href, -⟩, -⟩ := TransGen.head'_iff.mp hbelow
    obtain ⟨row, hrow, rfl⟩ := Database.exists_row_of_mem_refs href
    have hnone : ∀ row ∈ importDb.revisions, importDb.refs row.id = [] := by decide +kernel
    rw [hnone row hrow] at href
    exact absurd href List.not_mem_nil

end HetidaDesigner
