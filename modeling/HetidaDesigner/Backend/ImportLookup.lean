import HetidaDesigner.Backend.ComponentImports
import HetidaDesigner.Store.Containment

/-!
# Imports found and imports made

The components collected for an execution are those given and whatever is imported from them,
directly or through others, each of them once. At runtime a component is registered under its id as
`str` writes it, and looked up under the text found in the code. So imports succeed exactly if ids
are spelled in this way.
-/

namespace HetidaDesigner

open Checks Collecting LastEntry

variable {V D : Type}

/-! ## Imports in the store -/

/-- The stored code of a revision imports a component. -/
def Database.CodeImports (tools : CodeTools V D) (db : Database V D) (id : UUID)
    (found : ImportedText) : Prop :=
  ∃ shape ∈ db.shape id, ∃ code ∈ shape.code, ∃ imports,
    getGlobalComponentImports tools code = .ok imports ∧ found ∈ imports

/-- Imports of some components, directly or through other components. -/
inductive Database.Imported (tools : CodeTools V D) (db : Database V D) (ids : List UUID) :
    ImportedText → Prop
  | direct {id : UUID} {found : ImportedText} :
      id ∈ ids → db.CodeImports tools id found → Imported tools db ids found
  | further {via found : ImportedText} :
      Imported tools db ids via → db.CodeImports tools via.id found → Imported tools db ids found

/-- A revision is stored as a component whose imports can be found. -/
def Database.PassesImportCheck (tools : CodeTools V D) (db : Database V D) (id : UUID) : Prop :=
  ∃ shape ∈ db.shape id, shape.type = .component ∧ ∃ code ∈ shape.code, ∃ imports,
    getGlobalComponentImports tools code = .ok imports

/-- All imports are written as `str` writes ids. -/
def Database.ImportsCanonical (tools : CodeTools V D) (db : Database V D) (ids : List UUID) : Prop :=
  ∀ found, db.Imported tools ids found → found.text = uuidStr found.id

/-- The given revisions are stored components whose imports can be found, and so are all imported
ones. -/
structure Database.ImportsStored [UnicodeData] [DecidableEq V] (tools : CodeTools V D)
    (db : Database V D) (uuid4 : TrafoKey → ℕ → UUID) (trafos : List (Revision V D)) : Prop where
  given : ∀ trafo ∈ trafos, (∃ draws, db.selectTrById draws trafo.id = .ok trafo) ∧
    db.PassesImportCheck tools trafo.id
  imported : ∀ found, db.Imported tools (trafos.map fun trafo => trafo.id) found →
    (∃ trafo, db.selectTrById (uuid4 (.text found)) found.id = .ok trafo) ∧
      db.PassesImportCheck tools found.id

/-- The components of an execution are those given and those imported, each once, and each import
found in their code gets the component it names. -/
structure Database.ResolvesImports (tools : CodeTools V D) (db : Database V D) (ids : List UUID)
    (runtimeInput : ExecutionComponents V) : Prop where
  components : ∀ id, (∃ component ∈ runtimeInput.components, component.uuid = id) ↔
    id ∈ ids ∨ ∃ found, db.Imported tools ids found ∧ found.id = id
  codeModules : ∀ id, (∃ codeModule ∈ runtimeInput.codeModules, codeModule.uuid = id) ↔
    id ∈ ids ∨ ∃ found, db.Imported tools ids found ∧ found.id = id
  components_once : (runtimeInput.components.map fun component => component.uuid).Nodup
  codeModules_once : (runtimeInput.codeModules.map fun codeModule => codeModule.uuid).Nodup
  imports : ∀ codeModule ∈ runtimeInput.codeModules, ∀ imports,
    getGlobalComponentImports tools codeModule.code = .ok imports → ∀ found ∈ imports,
      ∃ codeModule' component, importComp (prepareRuntimeContextBindings runtimeInput) found.text =
        .ok (codeModule', component) ∧ codeModule'.uuid = found.id ∧ component.uuid = found.id

/-! ## What is found in loaded code -/

section Load

variable [UnicodeData] [DecidableEq V] {tools : CodeTools V D} {db : Database V D}

/-- A loaded revision which passes the check is a component with the stored code. -/
theorem content_of_select {draws : ℕ → UUID} {id : UUID} {trafo : Revision V D}
    (h : db.selectTrById draws id = .ok trafo) (hpasses : db.PassesImportCheck tools id) :
    trafo.id = id ∧ trafo.type = .component ∧ ∃ code imports, trafo.content = .code code ∧
      getGlobalComponentImports tools code = .ok imports ∧
        ∀ found, found ∈ imports ↔ db.CodeImports tools id found := by
  obtain ⟨hid, hshape⟩ := Database.shape_of_select h
  obtain ⟨shape, hshape', htype, code, hcode, imports, himports⟩ := hpasses
  obtain rfl := Option.some.inj (hshape.symm.trans hshape')
  have hcontent : trafo.content = .code code := by
    cases hkind : trafo.content with
    | code text =>
      have htext : trafo.content.code? = some code := hcode
      rw [hkind] at htext
      rw [Option.some.inj htext]
    | workflow content =>
      have htext : trafo.content.code? = some code := hcode
      rw [hkind] at htext
      exact absurd htext (by simp [Content.code?])
  refine ⟨hid, htype, code, imports, hcontent, himports, fun found => ?_⟩
  constructor
  · exact fun hfound => ⟨_, hshape, code, hcode, imports, himports, hfound⟩
  · rintro ⟨shape, hshape', code', hcode', imports', himports', hfound⟩
    obtain rfl := Option.some.inj (hshape.symm.trans hshape')
    obtain rfl := Option.some.inj (hcode.symm.trans hcode')
    obtain rfl := Except.ok.inj (himports.symm.trans himports')
    exact hfound

/-- What a loaded revision asks for. -/
theorem directImports_of_select {draws : ℕ → UUID} {id : UUID} {trafo : Revision V D}
    (h : db.selectTrById draws id = .ok trafo) (hpasses : db.PassesImportCheck tools id) :
    ∃ imports : List ImportedText, directImports tools trafo = .ok (imports.map .text) ∧
      ∀ found, found ∈ imports ↔ db.CodeImports tools id found := by
  obtain ⟨-, htype, code, imports, hcontent, himports, hiff⟩ := content_of_select h hpasses
  refine ⟨imports, ?_, hiff⟩
  rw [directImports, htype, hcontent]
  dsimp only
  rw [himports]
  rfl

end Load

/-! ## What is collected -/

section Read

variable [UnicodeData] [DecidableEq V] {tools : CodeTools V D} {db : Database V D}
  {uuid4 : TrafoKey → ℕ → UUID} {trafos : List (Revision V D)}

/-- The key is a text imported from some components. -/
def ImportedKey (tools : CodeTools V D) (db : Database V D) (ids : List UUID) : TrafoKey → Prop
  | .id _ => False
  | .text found => db.Imported tools ids found

/-- The components at which the search for imports begins. -/
abbrev initialComponents (trafos : List (Revision V D)) : List (Revision V D) :=
  dictById (fun trafo => trafo.id) (trafos.filter fun trafo => trafo.type = .component)

/-- The entries with which the dictionary of fetched revisions begins. -/
abbrev initialEntries (trafos : List (Revision V D)) : List (TrafoKey × Revision V D) :=
  (initialComponents trafos).map fun trafo => (.id trafo.id, trafo)

/-- The entries of a dictionary whose keys are not those at the beginning. -/
abbrev newEntries (trafos : List (Revision V D)) (loaded : List (TrafoKey × Revision V D)) :
    List (TrafoKey × Revision V D) :=
  loaded.filter fun entry => entry.1 ∉ (initialComponents trafos).map fun trafo => .id trafo.id

omit [UnicodeData] [DecidableEq V] in
/-- Keys at the beginning are ids. -/
theorem text_not_mem_initialEntries (found : ImportedText) :
    TrafoKey.text found ∉ keys (initialEntries trafos) := by
  intro h
  obtain ⟨entry, hentry, hkey⟩ := List.mem_map.mp h
  obtain ⟨trafo, -, rfl⟩ := List.mem_map.mp hentry
  exact TrafoKey.noConfusion hkey

omit [UnicodeData] [DecidableEq V] in
/-- A successful search for imports. -/
theorem readComponentImports_eq_ok {load : TrafoKey → Except StoreError (Revision V D)}
    {levels : ℕ} {imported : List (Revision V D)} :
    readComponentImportsRecursively tools load levels trafos = some (.ok imported) ↔
      ∃ lists, (initialComponents trafos).mapM (directImports tools) = .ok lists ∧
        ∃ loaded, fill load (directImports tools) levels lists.flatten
            (initialEntries trafos) = some (.ok loaded) ∧
          imported = (loaded.filter fun entry =>
            entry.1 ∉ (initialComponents trafos).map fun trafo => .id trafo.id).map Prod.snd := by
  rw [readComponentImportsRecursively]
  cases hlists : (initialComponents trafos).mapM (directImports tools) with
  | error error => simp
  | ok lists =>
    simp only [Except.ok.injEq, exists_eq_left']
    rw [recursivelyLoadWithComponentImports, Option.map_eq_some_iff]
    constructor
    · rintro ⟨result, hfill, hmap⟩
      obtain ⟨loaded, rfl, rfl⟩ := map_eq_ok.mp hmap
      exact ⟨loaded, hfill, rfl⟩
    · rintro ⟨loaded, hfill, rfl⟩
      exact ⟨_, hfill, rfl⟩

section Stored

variable (hstored : db.ImportsStored tools uuid4 trafos)

include hstored

/-- What the initial components ask for. -/
theorem exists_initialImports : ∃ lists, (initialComponents trafos).mapM (directImports tools) =
    .ok lists := by
  refine exists_mapM fun trafo htrafo => ?_
  have hmem := (List.mem_filter.mp (mem_of_mem_dictById htrafo)).1
  obtain ⟨⟨draws, hselect⟩, hpasses⟩ := hstored.given trafo hmem
  obtain ⟨imports, himports, -⟩ := directImports_of_select hselect hpasses
  exact ⟨_, himports⟩

/-- All that the initial components ask for is imported. -/
theorem importedKey_of_initial {lists : List (List TrafoKey)}
    (hlists : (initialComponents trafos).mapM (directImports tools) = .ok lists) :
    ∀ key ∈ lists.flatten, ImportedKey tools db (trafos.map fun trafo => trafo.id) key := by
  intro key hkey
  obtain ⟨asked, hasked, hkey⟩ := List.mem_flatten.mp hkey
  obtain ⟨trafo, htrafo, hdirect⟩ := exists_argument_of_mapM hlists hasked
  have hmem := (List.mem_filter.mp (mem_of_mem_dictById htrafo)).1
  obtain ⟨⟨draws, hselect⟩, hpasses⟩ := hstored.given trafo hmem
  obtain ⟨imports, himports, hiff⟩ := directImports_of_select hselect hpasses
  obtain rfl := Except.ok.inj (hdirect.symm.trans himports)
  obtain ⟨found, hfound, rfl⟩ := List.mem_map.mp hkey
  exact .direct (List.mem_map_of_mem hmem) ((hiff found).mp hfound)

/-- Imported revisions can be loaded, and what they ask for is imported. -/
theorem exists_load {key : TrafoKey}
    (hkey : ImportedKey tools db (trafos.map fun trafo => trafo.id) key) :
    ∃ trafo asked, loadTrafo db uuid4 key = .ok trafo ∧ directImports tools trafo = .ok asked ∧
      ∀ key' ∈ asked, ImportedKey tools db (trafos.map fun trafo => trafo.id) key' := by
  cases key with
  | id id => exact hkey.elim
  | text found =>
    obtain ⟨⟨trafo, hselect⟩, hpasses⟩ := hstored.imported found hkey
    obtain ⟨imports, himports, hiff⟩ := directImports_of_select hselect hpasses
    refine ⟨trafo, _, hselect, himports, fun key' hkey' => ?_⟩
    obtain ⟨further, hfurther, rfl⟩ := List.mem_map.mp hkey'
    exact .further hkey ((hiff further).mp hfurther)

/-- What is asked for by something imported is imported. -/
theorem importedKey_of_load (key : TrafoKey)
    (hkey : ImportedKey tools db (trafos.map fun trafo => trafo.id) key) (trafo : Revision V D)
    (hload : loadTrafo db uuid4 key = .ok trafo) (asked : List TrafoKey)
    (hasked : directImports tools trafo = .ok asked) :
    ∀ key' ∈ asked, ImportedKey tools db (trafos.map fun trafo => trafo.id) key' := by
  obtain ⟨trafo', asked', hload', hasked', hall⟩ := exists_load hstored hkey
  obtain rfl := Except.ok.inj (hload.symm.trans hload')
  obtain rfl := Except.ok.inj (hasked.symm.trans hasked')
  exact hall

omit hstored [UnicodeData] [DecidableEq V] in
/-- Finitely many texts are imported by any stored code. -/
theorem exists_importedKeys (tools : CodeTools V D) (db : Database V D) (ids : List UUID) :
    ∃ possible : Finset TrafoKey, ∀ key, ImportedKey tools db ids key → key ∈ possible := by
  let texts (row : Revision V D) : List ImportedText :=
    ((row.content.code?).bind fun code => (getGlobalComponentImports tools code).toOption).getD []
  refine ⟨((db.revisions.flatMap texts).map .text).toFinset, fun key hkey => ?_⟩
  cases key with
  | id id => exact hkey.elim
  | text found =>
    have himports : ∃ id, db.CodeImports tools id found := by
      cases hkey with
      | direct _ himports => exact ⟨_, himports⟩
      | further _ himports => exact ⟨_, himports⟩
    obtain ⟨id, shape, hshape, code, hcode, imports, himports, hfound⟩ := himports
    obtain ⟨row, hrow, rfl⟩ := Option.map_eq_some_iff.mp hshape
    refine List.mem_toFinset.mpr (List.mem_map_of_mem (List.mem_flatMap.mpr
      ⟨row, (Database.find_eq_some hrow).1, ?_⟩))
    have hcode' : row.content.code? = some code := hcode
    simp only [texts, hcode', Option.bind_some, himports]
    exact hfound

/-- The search for imports ends with a result. -/
theorem exists_readComponentImports : ∃ enough, ∀ levels, enough ≤ levels → ∃ imported,
    readComponentImportsRecursively tools (loadTrafo db uuid4) levels trafos = some (.ok imported) := by
  obtain ⟨lists, hlists⟩ := exists_initialImports hstored
  obtain ⟨possible, hpossible⟩ :=
    exists_importedKeys tools db (trafos.map fun trafo => trafo.id)
  refine ⟨possible.card + 1, fun levels hlevels => ?_⟩
  have hcard : (possible.filter fun key => key ∉ keys (initialEntries trafos)).card < levels :=
    Nat.lt_of_le_of_lt (Finset.card_filter_le _ _) hlevels
  obtain ⟨loaded, hloaded⟩ := exists_fill (fun key hkey => exists_load hstored hkey) hpossible
    (importedKey_of_initial hstored hlists) hcard
  exact ⟨_, readComponentImports_eq_ok.mpr ⟨lists, hlists, loaded, hloaded, rfl⟩⟩

/-- New entries are imports which have been loaded. -/
theorem newEntry_of_fill {levels : ℕ} {lists : List (List TrafoKey)}
    {loaded : List (TrafoKey × Revision V D)}
    (hlists : (initialComponents trafos).mapM (directImports tools) = .ok lists)
    (hloaded : fill (loadTrafo db uuid4) (directImports tools) levels lists.flatten
      (initialEntries trafos) = some (.ok loaded))
    {entry : TrafoKey × Revision V D} (hentry : entry ∈ newEntries trafos loaded) :
    ∃ found, entry.1 = .text found ∧
      db.Imported tools (trafos.map fun trafo => trafo.id) found ∧
      db.selectTrById (uuid4 (.text found)) found.id = .ok entry.2 := by
  obtain ⟨hentry, hnew⟩ := List.mem_filter.mp hentry
  have hnotInitial : entry ∉ initialEntries trafos := by
    intro hinitial
    obtain ⟨given, hgiven, rfl⟩ := List.mem_map.mp hinitial
    exact of_decide_eq_true hnew (List.mem_map.mpr ⟨given, hgiven, rfl⟩)
  have himported := (property_of_fill (importedKey_of_load hstored) hloaded
    (importedKey_of_initial hstored hlists) hentry).resolve_left hnotInitial
  obtain ⟨hload, -⟩ := (closed_of_fill hloaded hentry).resolve_left hnotInitial
  cases hkey : entry.1 with
  | id id =>
    rw [hkey] at himported
    exact himported.elim
  | text found =>
    rw [hkey] at himported hload
    exact ⟨found, rfl, himported, hload⟩

/-- All imports have a new entry. -/
theorem exists_newEntry_of_fill {levels : ℕ} {lists : List (List TrafoKey)}
    {loaded : List (TrafoKey × Revision V D)}
    (hlists : (initialComponents trafos).mapM (directImports tools) = .ok lists)
    (hloaded : fill (loadTrafo db uuid4) (directImports tools) levels lists.flatten
      (initialEntries trafos) = some (.ok loaded))
    {found : ImportedText} (hfound : db.Imported tools (trafos.map fun trafo => trafo.id) found) :
    ∃ entry ∈ newEntries trafos loaded, entry.1 = .text found := by
  have hload (found : ImportedText) {entry : TrafoKey × Revision V D} (hentry : entry ∈ loaded)
      (hkey : entry.1 = .text found) : loadTrafo db uuid4 (.text found) = .ok entry.2 ∧
        ∃ asked, directImports tools entry.2 = .ok asked ∧ asked ⊆ keys loaded := by
    rcases closed_of_fill hloaded hentry with hinitial | hclosed
    · have hin : entry.1 ∈ keys (initialEntries trafos) := List.mem_map_of_mem hinitial
      exact absurd (hkey ▸ hin) (text_not_mem_initialEntries found)
    · exact hkey ▸ hclosed
  have hkeys : TrafoKey.text found ∈ keys loaded := by
    induction hfound with
    | @direct id found hid himports =>
      obtain ⟨trafo, htrafo, rfl⟩ := List.mem_map.mp hid
      obtain ⟨⟨draws, hselect⟩, hpasses⟩ := hstored.given trafo htrafo
      have hcomponent : trafo ∈ trafos.filter fun trafo => trafo.type = .component :=
        List.mem_filter.mpr ⟨htrafo, decide_eq_true (content_of_select hselect hpasses).2.1⟩
      obtain ⟨initial, hinitial, hsame⟩ : ∃ initial ∈ initialComponents trafos,
          initial.id = trafo.id := exists_mem_dictById hcomponent
      have hmem := (List.mem_filter.mp (mem_of_mem_dictById hinitial)).1
      obtain ⟨⟨draws', hselect'⟩, hpasses'⟩ := hstored.given initial hmem
      obtain ⟨imports, himports', hiff⟩ := directImports_of_select hselect' hpasses'
      obtain ⟨asked, hasked, hdirect⟩ := exists_of_mapM hlists hinitial
      obtain rfl := Except.ok.inj (hdirect.symm.trans himports')
      rw [hsame] at hiff
      exact (subset_of_fill hloaded).2 _ (List.mem_flatten.mpr
        ⟨_, hasked, List.mem_map_of_mem ((hiff found).mpr himports)⟩)
    | @further via found hvia himports ih =>
      obtain ⟨entry, hentry, hkey⟩ := List.mem_map.mp ih
      obtain ⟨hselect, asked, hasked, hsub⟩ := hload via hentry hkey
      obtain ⟨imports, himports', hiff⟩ :=
        directImports_of_select hselect (hstored.imported via hvia).2
      obtain rfl := Except.ok.inj (hasked.symm.trans himports')
      exact hsub (List.mem_map_of_mem ((hiff found).mpr himports))
  obtain ⟨entry, hentry, hkey⟩ := List.mem_map.mp hkeys
  refine ⟨entry, List.mem_filter.mpr ⟨hentry, decide_eq_true ?_⟩, hkey⟩
  rw [hkey]
  intro hmem
  obtain ⟨trafo, -, heq⟩ := List.mem_map.mp hmem
  exact TrafoKey.noConfusion heq

/-- Each component which is found is loaded, as an import. -/
theorem imported_of_read {levels : ℕ} {imported : List (Revision V D)}
    (h : readComponentImportsRecursively tools (loadTrafo db uuid4) levels trafos = some (.ok imported))
    {trafo : Revision V D} (htrafo : trafo ∈ imported) :
    ∃ found, db.Imported tools (trafos.map fun trafo => trafo.id) found ∧
      db.selectTrById (uuid4 (.text found)) found.id = .ok trafo := by
  obtain ⟨lists, hlists, loaded, hloaded, rfl⟩ := readComponentImports_eq_ok.mp h
  obtain ⟨entry, hentry, rfl⟩ := List.mem_map.mp htrafo
  obtain ⟨found, -, himported, hselect⟩ := newEntry_of_fill hstored hlists hloaded hentry
  exact ⟨found, himported, hselect⟩

/-- All imported components are found. -/
theorem exists_imported_of_read {levels : ℕ} {imported : List (Revision V D)}
    (h : readComponentImportsRecursively tools (loadTrafo db uuid4) levels trafos = some (.ok imported))
    {found : ImportedText} (hfound : db.Imported tools (trafos.map fun trafo => trafo.id) found) :
    ∃ trafo ∈ imported, trafo.id = found.id := by
  obtain ⟨lists, hlists, loaded, hloaded, rfl⟩ := readComponentImports_eq_ok.mp h
  obtain ⟨entry, hentry, hkey⟩ := exists_newEntry_of_fill hstored hlists hloaded hfound
  obtain ⟨found', hkey', -, hselect⟩ := newEntry_of_fill hstored hlists hloaded hentry
  obtain rfl := TrafoKey.text.inj (hkey.symm.trans hkey')
  exact ⟨entry.2, List.mem_map_of_mem hentry, (Database.shape_of_select hselect).1⟩

/-- The texts which are imported, each once, with the components that are found under them. -/
theorem exists_texts_of_read {levels : ℕ} {imported : List (Revision V D)}
    (h : readComponentImportsRecursively tools (loadTrafo db uuid4) levels trafos =
      some (.ok imported)) :
    ∃ texts : List ImportedText, texts.Nodup ∧
      (∀ found, found ∈ texts ↔ db.Imported tools (trafos.map fun trafo => trafo.id) found) ∧
      imported.map (fun trafo => trafo.id) = texts.map fun found => found.id := by
  obtain ⟨lists, hlists, loaded, hloaded, rfl⟩ := readComponentImports_eq_ok.mp h
  let text (entry : TrafoKey × Revision V D) : ImportedText :=
    match entry.1 with
    | .id id => ⟨[], id⟩
    | .text found => found
  have htext {entry : TrafoKey × Revision V D} (hentry : entry ∈ newEntries trafos loaded) :
      entry.1 = .text (text entry) ∧
        db.Imported tools (trafos.map fun trafo => trafo.id) (text entry) ∧
        entry.2.id = (text entry).id := by
    obtain ⟨found, hkey, himported, hselect⟩ := newEntry_of_fill hstored hlists hloaded hentry
    have hfound : text entry = found := by
      simp only [text, hkey]
    exact hfound ▸ ⟨hkey, himported, (Database.shape_of_select hselect).1⟩
  have hkeys : (newEntries trafos loaded).map Prod.fst =
      ((newEntries trafos loaded).map text).map .text := by
    rw [List.map_map]
    exact List.map_congr_left fun entry hentry => (htext hentry).1
  refine ⟨(newEntries trafos loaded).map text, ?_, fun found => ⟨?_, fun hfound => ?_⟩, ?_⟩
  · have hinitial : (keys (initialEntries trafos)).Nodup := by
      have hids : ((initialComponents trafos).map fun trafo => trafo.id).Nodup :=
        dictById_nodup _ _
      rw [keys, List.map_map]
      have hmap := hids.map (f := TrafoKey.id) fun a b heq => TrafoKey.id.inj heq
      rwa [List.map_map] at hmap
    have hnodup := KeyedList.filter_nodup (keys_nodup_of_fill hloaded hinitial) fun entry =>
      entry.1 ∉ (initialComponents trafos).map fun trafo => .id trafo.id
    exact List.Nodup.of_map _ (hkeys ▸ hnodup)
  · intro hfound
    obtain ⟨entry, hentry, rfl⟩ := List.mem_map.mp hfound
    exact (htext hentry).2.1
  · obtain ⟨entry, hentry, hkey⟩ := exists_newEntry_of_fill hstored hlists hloaded hfound
    exact List.mem_map.mpr ⟨entry, hentry, TrafoKey.text.inj ((htext hentry).1.symm.trans hkey)⟩
  · rw [List.map_map, List.map_map]
    exact List.map_congr_left fun entry hentry => (htext hentry).2.2

end Stored

/-- Components of an execution are stored ones: those with some ids, and those imported from them. -/
structure CollectsImports (tools : CodeTools V D) (db : Database V D) (ids : List UUID)
    (components : List (Revision V D)) : Prop where
  stored : ∀ trafo ∈ components, (∃ draws, db.selectTrById draws trafo.id = .ok trafo) ∧
    db.PassesImportCheck tools trafo.id
  ids : ∀ id, (∃ trafo ∈ components, trafo.id = id) ↔
    id ∈ ids ∨ ∃ found, db.Imported tools ids found ∧ found.id = id

/-- Collecting the components of an execution succeeds. -/
theorem exists_allComponents {nested adapter : List (Revision V D)}
    (hstored : db.ImportsStored tools uuid4 (nested ++ adapter)) :
    ∃ enough, ∀ levels, enough ≤ levels → ∃ components,
      allComponents tools db uuid4 levels nested adapter = some (.ok components) := by
  obtain ⟨enough, henough⟩ := exists_readComponentImports hstored
  refine ⟨enough, fun levels hlevels => ?_⟩
  obtain ⟨imported, himported⟩ := henough levels hlevels
  exact ⟨_, Option.map_eq_some_iff.mpr ⟨_, himported, rfl⟩⟩

/-- It collects the given components and the imported ones. -/
theorem collectsImports {nested adapter : List (Revision V D)}
    (hstored : db.ImportsStored tools uuid4 (nested ++ adapter)) {levels : ℕ}
    {components : List (Revision V D)}
    (h : allComponents tools db uuid4 levels nested adapter = some (.ok components)) :
    CollectsImports tools db ((nested ++ adapter).map fun trafo => trafo.id) components := by
  obtain ⟨result, hread, hmap⟩ := Option.map_eq_some_iff.mp h
  obtain ⟨imported, rfl, rfl⟩ := map_eq_ok.mp hmap
  have hsource : ∀ trafo ∈ nested ++ adapter ++ imported, trafo ∈ nested ++ adapter ∨
      ∃ found, db.Imported tools ((nested ++ adapter).map fun trafo => trafo.id) found ∧
        db.selectTrById (uuid4 (.text found)) found.id = .ok trafo := by
    intro trafo htrafo
    rcases List.mem_append.mp htrafo with hgiven | htrafo
    · exact Or.inl hgiven
    · exact Or.inr (imported_of_read hstored hread htrafo)
  refine ⟨fun trafo htrafo => ?_, fun id => ⟨?_, ?_⟩⟩
  · rcases hsource trafo (mem_of_mem_dictById htrafo) with hgiven | ⟨found, hfound, hselect⟩
    · exact hstored.given trafo hgiven
    · rw [(Database.shape_of_select hselect).1]
      exact ⟨⟨_, hselect⟩, (hstored.imported found hfound).2⟩
  · rintro ⟨trafo, htrafo, rfl⟩
    rcases hsource trafo (mem_of_mem_dictById htrafo) with hgiven | ⟨found, hfound, hselect⟩
    · exact Or.inl (List.mem_map_of_mem hgiven)
    · exact Or.inr ⟨found, hfound, (Database.shape_of_select hselect).1.symm⟩
  · have hkey (trafo : Revision V D) (htrafo : trafo ∈ nested ++ adapter ++ imported) :
        ∃ trafo' ∈ dictById (fun trafo => trafo.id) (nested ++ adapter ++ imported),
          trafo'.id = trafo.id := exists_mem_dictById htrafo
    rintro (hid | ⟨found, hfound, rfl⟩)
    · obtain ⟨trafo, htrafo, rfl⟩ := List.mem_map.mp hid
      exact hkey trafo (List.mem_append_left _ htrafo)
    · obtain ⟨trafo, htrafo, hid⟩ := exists_imported_of_read hstored hread hfound
      obtain ⟨trafo', htrafo', hid'⟩ := hkey trafo (List.mem_append_right _ htrafo)
      exact ⟨trafo', htrafo', hid'.trans hid⟩

end Read

/-! ## What the runtime gets -/

section Runtime

/-- The id of a code module and of a component. -/
theorem toCodeModule_uuid {trafo : Revision V D} {codeModule : CodeModule}
    (h : trafo.toCodeModule = .ok codeModule) :
    codeModule.uuid = trafo.id ∧ trafo.content = .code codeModule.code := by
  unfold TransformationRevision.toCodeModule at h
  split at h
  · cases h
  · cases h
  · rename_i hcontent
    obtain rfl := Except.ok.inj h
    exact ⟨rfl, hcontent⟩

/-- The ids in a converted component. -/
theorem toComponentRevision_uuid {trafo : Revision V D} {component : ComponentRevision V}
    (h : trafo.toComponentRevision = .ok component) :
    component.uuid = trafo.id ∧ component.codeModuleUuid = trafo.id := by
  obtain ⟨-, h⟩ := require_bind_eq_ok.mp h
  obtain ⟨inputs, -, h⟩ := bind_eq_ok.mp h
  obtain ⟨outputs, -, h⟩ := bind_eq_ok.mp h
  split at h
  · obtain rfl := return_eq_ok.mp h
    exact ⟨rfl, rfl⟩
  · cases h

/-- The input of an execution has the code and the components converted from revisions. -/
structure Converted (components : List (Revision V D)) (runtimeInput : ExecutionComponents V) :
    Prop where
  codeModules : ∀ codeModule, codeModule ∈ runtimeInput.codeModules ↔
    ∃ trafo ∈ components, trafo.toCodeModule = .ok codeModule
  codeModuleIds : ∀ id, (∃ codeModule ∈ runtimeInput.codeModules, codeModule.uuid = id) ↔
    ∃ trafo ∈ components, trafo.id = id
  componentIds : ∀ id, (∃ component ∈ runtimeInput.components, component.uuid = id) ↔
    ∃ trafo ∈ components, trafo.id = id
  ownCode : ∀ component ∈ runtimeInput.components, component.codeModuleUuid = component.uuid

/-- A successful conversion. -/
theorem converted_of_executionComponents {components : List (Revision V D)}
    {runtimeInput : ExecutionComponents V}
    (h : executionComponents components = .ok runtimeInput) :
    Converted components runtimeInput := by
  obtain ⟨codeModules, hcodeModules, h⟩ := bind_eq_ok.mp h
  obtain ⟨revisions, hrevisions, h⟩ := bind_eq_ok.mp h
  split at h
  · obtain rfl := return_eq_ok.mp h
    have hmem (codeModule : CodeModule) : codeModule ∈ codeModules.dedup ↔
        ∃ trafo ∈ components, trafo.toCodeModule = .ok codeModule := by
      rw [List.mem_dedup]
      constructor
      · exact fun hmem => exists_argument_of_mapM hcodeModules hmem
      · rintro ⟨trafo, htrafo, hcode⟩
        obtain ⟨codeModule', hmem', hcode'⟩ := exists_of_mapM hcodeModules htrafo
        rwa [Except.ok.inj (hcode.symm.trans hcode')]
    refine ⟨hmem, fun id => ⟨?_, ?_⟩, fun id => ⟨?_, ?_⟩, fun component hcomponent => ?_⟩
    · rintro ⟨codeModule, hcodeModule, rfl⟩
      obtain ⟨trafo, htrafo, hcode⟩ := (hmem codeModule).mp hcodeModule
      exact ⟨trafo, htrafo, (toCodeModule_uuid hcode).1.symm⟩
    · rintro ⟨trafo, htrafo, rfl⟩
      obtain ⟨codeModule, -, hcode⟩ := exists_of_mapM hcodeModules htrafo
      exact ⟨codeModule, (hmem codeModule).mpr ⟨trafo, htrafo, hcode⟩,
        (toCodeModule_uuid hcode).1⟩
    · rintro ⟨component, hcomponent, rfl⟩
      obtain ⟨trafo, htrafo, hrevision⟩ :=
        exists_argument_of_mapM hrevisions (mem_of_mem_dictById hcomponent)
      exact ⟨trafo, htrafo, (toComponentRevision_uuid hrevision).1.symm⟩
    · rintro ⟨trafo, htrafo, rfl⟩
      obtain ⟨component, hcomponent, hrevision⟩ := exists_of_mapM hrevisions htrafo
      obtain ⟨component', hcomponent', hsame⟩ : ∃ component' ∈
          dictById (fun component => component.uuid) revisions,
            component'.uuid = component.uuid := exists_mem_dictById hcomponent
      exact ⟨component', hcomponent', hsame.trans (toComponentRevision_uuid hrevision).1⟩
    · obtain ⟨trafo, -, hrevision⟩ :=
        exists_argument_of_mapM hrevisions (mem_of_mem_dictById hcomponent)
      obtain ⟨huuid, hcode⟩ := toComponentRevision_uuid hrevision
      exact hcode.trans huuid.symm
  · cases h

/-- A text finds only the component whose id `str` writes in this way. -/
theorem text_of_importComp {runtimeInput : ExecutionComponents V} {trafoId : PyStr}
    {codeModule : CodeModule} {component : ComponentRevision V}
    (h : importComp (prepareRuntimeContextBindings runtimeInput) trafoId =
      .ok (codeModule, component)) : uuidStr component.uuid = trafoId := by
  unfold importComp at h
  split at h
  · cases h
  · rename_i found hfound
    split at h
    · cases h
    · obtain ⟨rfl, rfl⟩ := Prod.mk.inj (Except.ok.inj h)
      exact (mem_of_lastEntry hfound).2

/-- A component is found under its id as `str` writes it. -/
theorem importComp_uuidStr {components : List (Revision V D)}
    {runtimeInput : ExecutionComponents V} (hconverted : Converted components runtimeInput)
    {id : UUID} (hid : ∃ trafo ∈ components, trafo.id = id) :
    ∃ codeModule component, importComp (prepareRuntimeContextBindings runtimeInput) (uuidStr id) =
      .ok (codeModule, component) ∧ codeModule.uuid = id ∧ component.uuid = id := by
  obtain ⟨given, hgiven, hgivenId⟩ := (hconverted.componentIds id).mpr hid
  obtain ⟨component, hcomponent⟩ :=
    exists_lastEntry (fun component : ComponentRevision V => uuidStr component.uuid) hgiven
  rw [hgivenId] at hcomponent
  obtain ⟨hmem, htext⟩ := mem_of_lastEntry hcomponent
  have hcomponentId : component.uuid = id := uuidStr_injective htext
  have hcode : component.codeModuleUuid = id := (hconverted.ownCode component hmem).trans hcomponentId
  obtain ⟨givenCode, hgivenCode, hgivenCodeId⟩ := (hconverted.codeModuleIds id).mpr hid
  obtain ⟨codeModule, hcodeModule⟩ :=
    exists_lastEntry (fun codeModule : CodeModule => uuidStr codeModule.uuid) hgivenCode
  rw [hgivenCodeId] at hcodeModule
  refine ⟨codeModule, component, ?_, uuidStr_injective (mem_of_lastEntry hcodeModule).2,
    hcomponentId⟩
  simp only [importComp, prepareRuntimeContextBindings, hcomponent, hcode, hcodeModule]

end Runtime

/-! ## Exactly for canonical texts -/

section Resolve

variable [UnicodeData] [DecidableEq V] {tools : CodeTools V D} {db : Database V D} {ids : List UUID}
  {components : List (Revision V D)} {runtimeInput : ExecutionComponents V}
  (hcollects : CollectsImports tools db ids components)
  (hconverted : Converted components runtimeInput)

include hcollects

/-- Imports are found in the code of collected components. -/
theorem exists_importing {found : ImportedText} (h : db.Imported tools ids found) :
    ∃ trafo ∈ components, db.CodeImports tools trafo.id found := by
  cases h with
  | direct hid himports =>
    obtain ⟨trafo, htrafo, rfl⟩ := (hcollects.ids _).mpr (Or.inl hid)
    exact ⟨trafo, htrafo, himports⟩
  | @further via _ hvia himports =>
    obtain ⟨trafo, htrafo, hid⟩ := (hcollects.ids via.id).mpr (Or.inr ⟨via, hvia, rfl⟩)
    exact ⟨trafo, htrafo, hid ▸ himports⟩

/-- What is found in the code of a collected component is imported. -/
theorem imported_of_codeImports {trafo : Revision V D} (htrafo : trafo ∈ components)
    {found : ImportedText} (h : db.CodeImports tools trafo.id found) :
    db.Imported tools ids found := by
  rcases (hcollects.ids trafo.id).mp ⟨trafo, htrafo, rfl⟩ with hid | ⟨via, hvia, hid⟩
  · exact .direct hid h
  · exact .further hvia (hid ▸ h)

include hconverted

/-- If imports get their components, the texts are canonical. -/
theorem importsCanonical_of_resolvesImports (h : db.ResolvesImports tools ids runtimeInput) :
    db.ImportsCanonical tools ids := by
  intro found hfound
  obtain ⟨trafo, htrafo, hcode⟩ := exists_importing hcollects hfound
  obtain ⟨⟨draws, hselect⟩, hpasses⟩ := hcollects.stored trafo htrafo
  obtain ⟨-, htype, code, imports, hcontent, himports, hiff⟩ := content_of_select hselect hpasses
  have hmodule : trafo.toCodeModule = .ok ⟨code, trafo.id⟩ := by
    rw [TransformationRevision.toCodeModule, htype, hcontent]
  obtain ⟨codeModule, component, himport, -, hid⟩ :=
    h.imports _ ((hconverted.codeModules _).mpr ⟨trafo, htrafo, hmodule⟩) imports himports found
      ((hiff found).mpr hcode)
  rw [← text_of_importComp himport, hid]

/-- If the texts are canonical, imports get their components. -/
theorem resolvesImports_of_importsCanonical (h : db.ImportsCanonical tools ids) :
    db.ResolvesImports tools ids runtimeInput where
  components id := (hconverted.componentIds id).trans (hcollects.ids id)
  codeModules id := (hconverted.codeModuleIds id).trans (hcollects.ids id)
  components_once := runtimeInput.components_unique
  codeModules_once := runtimeInput.code_modules_unique
  imports := by
    intro codeModule hcodeModule imports himports found hfound
    obtain ⟨trafo, htrafo, hmodule⟩ := (hconverted.codeModules codeModule).mp hcodeModule
    obtain ⟨⟨draws, hselect⟩, hpasses⟩ := hcollects.stored trafo htrafo
    obtain ⟨-, -, code, imports', hcontent, himports', hiff⟩ := content_of_select hselect hpasses
    obtain rfl : code = codeModule.code :=
      Content.code.inj (hcontent.symm.trans (toCodeModule_uuid hmodule).2)
    obtain rfl := Except.ok.inj (himports.symm.trans himports')
    have himported := imported_of_codeImports hcollects htrafo ((hiff found).mp hfound)
    rw [h found himported]
    exact importComp_uuidStr hconverted ((hcollects.ids found.id).mpr
      (Or.inr ⟨found, himported, rfl⟩))

end Resolve

/-- If imports can be found and loaded, the components of an execution are collected, and all
imports which are found get their components exactly if the texts are as `str` writes ids. -/
theorem resolvesImports_iff_importsCanonical [UnicodeData] [DecidableEq V]
    {tools : CodeTools V D} {db : Database V D} {uuid4 : TrafoKey → ℕ → UUID}
    {nested adapter : List (Revision V D)}
    (hstored : db.ImportsStored tools uuid4 (nested ++ adapter)) :
    (∃ enough, ∀ levels, enough ≤ levels → ∃ components,
      allComponents tools db uuid4 levels nested adapter = some (.ok components)) ∧
    ∀ levels components runtimeInput,
      allComponents tools db uuid4 levels nested adapter = some (.ok components) →
      executionComponents components = .ok runtimeInput →
      (db.ResolvesImports tools ((nested ++ adapter).map fun trafo => trafo.id) runtimeInput ↔
        db.ImportsCanonical tools ((nested ++ adapter).map fun trafo => trafo.id)) := by
  refine ⟨exists_allComponents hstored, fun levels components runtimeInput hall hinput => ?_⟩
  have hcollects := collectsImports hstored hall
  have hconverted := converted_of_executionComponents hinput
  exact ⟨importsCanonical_of_resolvesImports hcollects hconverted,
    resolvesImports_of_importsCanonical hcollects hconverted⟩

/-! ## An id in upper case -/

/-- Code which imports a component. -/
def importOf (text : PyStr) : PyStr := "k = import_comp(\"".toList ++ text ++ "\")\n".toList

/-- The text of the id 10 with its last digit in upper case. -/
def upperCaseTen : PyStr := "00000000-0000-0000-0000-00000000000A".toList

/-- Tools whose parser knows imports of the component 10 in two spellings. -/
def spellingTools : CodeTools ℤ Unit :=
  { plainTools with
    parse := fun code =>
      some (([upperCaseTen, uuidStr 10].filter fun text => code = importOf text).map fun text =>
        .assign 1 (.call (some "import_comp".toList) [.literal (some text)])) }

/-- A component which imports another one under some text. -/
def importing (text : PyStr) : Revision ℤ Unit := plainComponent 1 .released (importOf text)

/-- The component which is imported. -/
def importedTen : Revision ℤ Unit := plainComponent 10 .released "pass\n".toList

/-- A store with the two components. -/
def importingDb (text : PyStr) : Database ℤ Unit where
  revisions := [importedTen, importing text]
  nestings := []
  ids_unique := by simp [importedTen, importing, plainComponent, plainWorkflow]
  nesting_keys_unique := Nesting.nil_keys_nodup
  references_exist := fun _ h => absurd h List.not_mem_nil

/-- Draws for loading. -/
def plainDraws : TrafoKey → ℕ → UUID := fun _ => uuid4Above 1000

/-- In both spellings the component 10 is imported, and nothing else. -/
theorem imported_importingDb {text : PyStr} (h : text = upperCaseTen ∨ text = uuidStr 10)
    {found : ImportedText} (hfound : (importingDb text).Imported spellingTools [1] found) :
    found = ⟨text, 10⟩ := by
  have hown : getGlobalComponentImports spellingTools (importOf text) = .ok [⟨text, 10⟩] := by
    rcases h with rfl | rfl <;> decide +kernel
  have hother : getGlobalComponentImports spellingTools "pass\n".toList = .ok [] := by
    decide +kernel
  induction hfound with
  | direct hid himports =>
    obtain rfl := List.mem_singleton.mp hid
    obtain ⟨shape, hshape, code, hcode, imports, himports, hmem⟩ := himports
    obtain rfl := Option.some.inj hshape
    obtain rfl := Option.some.inj hcode
    obtain rfl := Except.ok.inj (hown.symm.trans himports)
    exact List.mem_singleton.mp hmem
  | further _ himports ih =>
    obtain ⟨shape, hshape, code, hcode, imports, himports, hmem⟩ := himports
    rw [ih] at hshape
    obtain rfl := Option.some.inj hshape
    obtain rfl := Option.some.inj hcode
    obtain rfl := Except.ok.inj (hother.symm.trans himports)
    exact absurd hmem List.not_mem_nil

/-- In both spellings all imports are stored. -/
theorem importsStored_importingDb {text : PyStr} (h : text = upperCaseTen ∨ text = uuidStr 10) :
    @Database.ImportsStored ℤ Unit asciiOnly _ spellingTools (importingDb text) plainDraws
      ([importing text] ++ []) := by
  have hown : getGlobalComponentImports spellingTools (importOf text) = .ok [⟨text, 10⟩] := by
    rcases h with rfl | rfl <;> decide +kernel
  have hother : getGlobalComponentImports spellingTools "pass\n".toList = .ok [] := by
    decide +kernel
  refine @Database.ImportsStored.mk ℤ Unit asciiOnly _ _ _ _ _ ?_ ?_
  · intro trafo htrafo
    obtain rfl := List.mem_singleton.mp htrafo
    refine ⟨⟨uuid4Above 1000, ?_⟩, _, rfl, rfl, _, rfl, _, hown⟩
    rcases h with rfl | rfl <;> decide +kernel
  · intro found hfound
    obtain rfl := imported_importingDb h hfound
    refine ⟨⟨importedTen, ?_⟩, _, rfl, rfl, _, rfl, _, hother⟩
    rcases h with rfl | rfl <;> decide +kernel

/-- The components which are collected for the importing one. -/
theorem allComponents_importingDb {text : PyStr} (h : text = upperCaseTen ∨ text = uuidStr 10) :
    @allComponents asciiOnly ℤ Unit _ spellingTools (importingDb text) plainDraws 3
      [importing text] [] = some (.ok [importing text, importedTen]) := by
  rcases h with rfl | rfl <;> decide +kernel

/-- The components can be handed to the runtime. -/
theorem exists_executionComponents {text : PyStr} (h : text = upperCaseTen ∨ text = uuidStr 10) :
    ∃ runtimeInput, executionComponents [importing text, importedTen] = .ok runtimeInput := by
  have hok : (executionComponents [importing text, importedTen]).isOk = true := by
    rcases h with rfl | rfl <;> decide +kernel
  cases hinput : executionComponents [importing text, importedTen] with
  | ok runtimeInput => exact ⟨runtimeInput, rfl⟩
  | error error =>
    rw [hinput] at hok
    cases hok

/-- The check accepts the spelling in upper case, but at runtime the component is missing. -/
theorem upperCaseTen_not_resolved :
    @Database.ImportsStored ℤ Unit asciiOnly _ spellingTools (importingDb upperCaseTen) plainDraws
        ([importing upperCaseTen] ++ []) ∧
      ∃ components runtimeInput,
        @allComponents asciiOnly ℤ Unit _ spellingTools (importingDb upperCaseTen) plainDraws 3
          [importing upperCaseTen] [] = some (.ok components) ∧
        executionComponents components = .ok runtimeInput ∧
        ¬ (importingDb upperCaseTen).ResolvesImports spellingTools [1] runtimeInput := by
  obtain ⟨runtimeInput, hinput⟩ := exists_executionComponents (Or.inl rfl)
  refine ⟨importsStored_importingDb (Or.inl rfl), _, runtimeInput,
    allComponents_importingDb (Or.inl rfl), hinput, fun hresolves => ?_⟩
  have hcode : ⟨importOf upperCaseTen, 1⟩ ∈ runtimeInput.codeModules :=
    ((converted_of_executionComponents hinput).codeModules _).mpr
      ⟨importing upperCaseTen, List.mem_cons_self .., rfl⟩
  have himports : getGlobalComponentImports spellingTools (importOf upperCaseTen) =
      .ok [⟨upperCaseTen, 10⟩] := by decide +kernel
  obtain ⟨codeModule, component, himport, -, hid⟩ :=
    hresolves.imports _ hcode _ himports _ (List.mem_singleton_self _)
  have htext := text_of_importComp himport
  rw [hid] at htext
  exact absurd htext (by decide +kernel)

/-- The characterisation on the spelling in lower case. -/
theorem lowerCaseTen_resolved :
    ∃ runtimeInput, executionComponents [importing (uuidStr 10), importedTen] = .ok runtimeInput ∧
      (importingDb (uuidStr 10)).ResolvesImports spellingTools [1] runtimeInput := by
  obtain ⟨runtimeInput, hinput⟩ := exists_executionComponents (Or.inr rfl)
  refine ⟨runtimeInput, hinput, ?_⟩
  refine ((@resolvesImports_iff_importsCanonical ℤ Unit asciiOnly _ _ _ _ _ _
    (importsStored_importingDb (Or.inr rfl))).2 3 _ _ (allComponents_importingDb (Or.inr rfl))
      hinput).mpr ?_
  intro found hfound
  obtain rfl := imported_importingDb (Or.inr rfl) hfound
  rfl

end HetidaDesigner
