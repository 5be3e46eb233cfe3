import HetidaDesigner.Backend.Handover
import HetidaDesigner.Backend.ImportLookup

/-!
# Wirings which use fewer components

If all revisions are read in the same way, what is collected for an execution only grows with the
components which the wiring uses, and whether the input can be built depends on each collected
component for itself. So an input which can be prepared for a wiring can be prepared for one which
uses fewer components.
-/

namespace HetidaDesigner

open Checks Collecting

variable {V J D : Type}

/-! ## Revisions as they are read -/

/-- Revisions which are what is read under their ids. -/
def ReadBy (read : UUID → Except StoreError (Revision V D)) (trafos : List (Revision V D)) : Prop :=
  ∀ trafo ∈ trafos, read trafo.id = .ok trafo

section Read

variable {read : UUID → Except StoreError (Revision V D)}

/-- What is read is known by its id. -/
theorem ReadBy.eq_of_id_eq {trafos : List (Revision V D)} (h : ReadBy read trafos)
    {trafo other : Revision V D} (htrafo : trafo ∈ trafos) (hother : other ∈ trafos)
    (hid : trafo.id = other.id) : trafo = other := by
  have hread := h trafo htrafo
  rw [hid] at hread
  exact Except.ok.inj (hread.symm.trans (h other hother))

/-- A dictionary of what is read has all of it. -/
theorem ReadBy.mem_dictById_iff {trafos : List (Revision V D)} (h : ReadBy read trafos)
    {trafo : Revision V D} :
    trafo ∈ dictById (fun trafo => trafo.id) trafos ↔ trafo ∈ trafos := by
  refine ⟨mem_of_mem_dictById, fun hmem => ?_⟩
  obtain ⟨other, hother, hid⟩ :
      ∃ other ∈ dictById (fun trafo => trafo.id) trafos, other.id = trafo.id :=
    exists_mem_dictById hmem
  rwa [h.eq_of_id_eq hmem (mem_of_mem_dictById hother) hid.symm]

/-- Part of what is read. -/
theorem ReadBy.subset {trafos trafos' : List (Revision V D)} (h : ReadBy read trafos')
    (hsub : trafos ⊆ trafos') : ReadBy read trafos :=
  fun trafo htrafo => h trafo (hsub htrafo)

/-- Reading several revisions gives each of them under its id. -/
theorem mem_of_readMultiple {ids : List UUID} {entries : List (UUID × Revision V D)}
    (h : readMultiple read ids = .ok entries) {entry : UUID × Revision V D} :
    entry ∈ entries ↔ entry.1 ∈ ids ∧ read entry.1 = .ok entry.2 := by
  obtain ⟨all, hall, h⟩ := bind_eq_ok.mp h
  obtain rfl := return_eq_ok.mp h
  have hentry (entry : UUID × Revision V D) (hmem : entry ∈ all) :
      entry.1 ∈ ids ∧ read entry.1 = .ok entry.2 := by
    obtain ⟨id, hid, hread⟩ := exists_argument_of_mapM hall hmem
    obtain ⟨revision, hrevision, rfl⟩ := map_eq_ok.mp hread
    exact ⟨hid, hrevision⟩
  constructor
  · exact fun hmem => hentry entry (mem_of_mem_dictById hmem)
  · rintro ⟨hid, hread⟩
    obtain ⟨other, hother, hother'⟩ := exists_of_mapM hall hid
    obtain ⟨revision, -, rfl⟩ := map_eq_ok.mp hother'
    obtain ⟨found, hfound, hkey⟩ := @exists_mem_dictById _ Prod.fst _ _ hother
    replace hkey : found.1 = entry.1 := hkey
    have hsame : found = entry := by
      obtain ⟨-, hreadFound⟩ := hentry found (mem_of_mem_dictById hfound)
      rw [hkey] at hreadFound
      exact Prod.ext hkey (Except.ok.inj (hreadFound.symm.trans hread))
    exact hsame ▸ hfound

/-- Several revisions can be read if each of them can. -/
theorem exists_readMultiple {ids : List UUID} (h : ∀ id ∈ ids, ∃ revision, read id = .ok revision) :
    ∃ entries, readMultiple read ids = .ok entries := by
  have hall : ∀ id ∈ ids, ∃ entry, ((read id).map fun revision => (id, revision)) = .ok entry := by
    intro id hid
    obtain ⟨revision, hread⟩ := h id hid
    exact ⟨_, map_eq_ok.mpr ⟨revision, hread, rfl⟩⟩
  obtain ⟨all, hall⟩ := exists_mapM hall
  exact ⟨_, bind_eq_ok.mpr ⟨all, hall, rfl⟩⟩

/-- Each id of a successful reading has a revision. -/
theorem exists_of_readMultiple {ids : List UUID} {entries : List (UUID × Revision V D)}
    (h : readMultiple read ids = .ok entries) {id : UUID} (hid : id ∈ ids) :
    ∃ revision, read id = .ok revision := by
  obtain ⟨all, hall, -⟩ := bind_eq_ok.mp h
  obtain ⟨entry, -, hread⟩ := exists_of_mapM hall hid
  obtain ⟨revision, hrevision, -⟩ := map_eq_ok.mp hread
  exact ⟨revision, hrevision⟩

/-- Reading for the component adapter succeeds exactly if reading does. -/
theorem readForComponentAdapter_eq_ok {reader : TrafoReader V D} {ids : List UUID}
    {trafos : List (Revision V D)} :
    readForComponentAdapter reader ids = .ok trafos ↔
      ∃ entries, reader.multiple ids = .ok entries ∧ entries.map Prod.snd = trafos := by
  unfold readForComponentAdapter
  split <;> simp_all

end Read

/-! ## Components used by a wiring -/

section Adapter

variable {read : UUID → Except StoreError (Revision V (WiringData J))}

/-- The wirings of the component adapter. -/
def componentWirings (wirings : List (Wiring (WiringData J))) : List (Wiring (WiringData J)) :=
  wirings.filter fun wiring => wiring.adapterId = .str "component-adapter".toList

/-- Fewer wirings give fewer ids. -/
theorem exists_componentAdapterIds {numerals : NumeralTables}
    {wirings wirings' : List (Wiring (WiringData J))}
    (hsub : componentWirings wirings ⊆ componentWirings wirings') {ids' : List UUID}
    (h : componentAdapterIds numerals wirings' = .ok ids') :
    ∃ ids, componentAdapterIds numerals wirings = .ok ids ∧ ids ⊆ ids' := by
  have hall : ∀ wiring ∈ componentWirings wirings, ∃ id,
      componentAdapterId numerals wiring = .ok id := by
    intro wiring hwiring
    obtain ⟨id, -, hid⟩ := exists_of_mapM h (hsub hwiring)
    exact ⟨id, hid⟩
  obtain ⟨ids, hids⟩ := exists_mapM hall
  refine ⟨ids, hids, fun id hid => ?_⟩
  obtain ⟨wiring, hwiring, hok⟩ := exists_argument_of_mapM hids hid
  obtain ⟨id', hid', hok'⟩ := exists_of_mapM h (hsub hwiring)
  rwa [Except.ok.inj (hok.symm.trans hok')]

/-- Fewer ids give fewer revisions. -/
theorem exists_readForComponentAdapter {ids ids' : List UUID} (hsub : ids ⊆ ids')
    {trafos' : List (Revision V (WiringData J))}
    (h : readForComponentAdapter (uniformReader read) ids' = .ok trafos') :
    ∃ trafos, readForComponentAdapter (uniformReader read) ids = .ok trafos ∧
      trafos ⊆ trafos' := by
  obtain ⟨entries', hentries', rfl⟩ := readForComponentAdapter_eq_ok.mp h
  obtain ⟨entries, hentries⟩ :=
    exists_readMultiple fun id hid => exists_of_readMultiple hentries' (hsub hid)
  refine ⟨_, readForComponentAdapter_eq_ok.mpr ⟨entries, hentries, rfl⟩, ?_⟩
  refine List.map_subset _ fun entry hentry => ?_
  obtain ⟨hid, hread⟩ := (mem_of_readMultiple hentries).mp hentry
  exact (mem_of_readMultiple hentries').mpr ⟨hsub hid, hread⟩

/-- The components which a wiring uses. -/
theorem loadComponents_eq_ok {numerals : NumeralTables} {config : ComponentAdapterConfig}
    {reader : TrafoReader V (WiringData J)} {wiring : WorkflowWiring (WiringData J)}
    {trafos : List (Revision V (WiringData J))} :
    loadComponenAdapterWiringsComponents numerals config reader wiring = .ok trafos ↔
      ∃ sourceIds, componentAdapterIds numerals wiring.inputWirings = .ok sourceIds ∧
      ∃ sinkIds, componentAdapterIds numerals wiring.outputWirings = .ok sinkIds ∧
      ∃ sources, readForComponentAdapter reader sourceIds = .ok sources ∧
      ∃ sinks, readForComponentAdapter reader sinkIds = .ok sinks ∧
        (∀ trafo ∈ sources, validSourceTrafo config trafo = true) ∧
        (∀ trafo ∈ sinks, validSinkTrafo config trafo = true) ∧ sources ++ sinks = trafos := by
  unfold loadComponenAdapterWiringsComponents
  simp only [bind_eq_ok, require_eq_ok, return_eq_ok, List.all_eq_true, exists_and_left,
    exists_const]

/-- A wiring which uses fewer components. -/
structure UsesFewer (wiring wiring' : WorkflowWiring (WiringData J)) : Prop where
  inputs : componentWirings wiring.inputWirings ⊆ componentWirings wiring'.inputWirings
  outputs : componentWirings wiring.outputWirings ⊆ componentWirings wiring'.outputWirings

/-- Fewer components are loaded for a wiring which uses fewer. -/
theorem UsesFewer.exists_loaded {numerals : NumeralTables} {config : ComponentAdapterConfig}
    {wiring wiring' : WorkflowWiring (WiringData J)} (hfewer : UsesFewer wiring wiring')
    {trafos' : List (Revision V (WiringData J))}
    (h : loadComponenAdapterWiringsComponents numerals config (uniformReader read) wiring' =
      .ok trafos') :
    ∃ trafos, loadComponenAdapterWiringsComponents numerals config (uniformReader read) wiring =
      .ok trafos ∧ trafos ⊆ trafos' := by
  obtain ⟨_, hsourceIds', _, hsinkIds', sources', hsources', sinks', hsinks', hvalidSources,
    hvalidSinks, rfl⟩ := loadComponents_eq_ok.mp h
  obtain ⟨sourceIds, hsourceIds, hsub⟩ := exists_componentAdapterIds hfewer.inputs hsourceIds'
  obtain ⟨sinkIds, hsinkIds, hsub'⟩ := exists_componentAdapterIds hfewer.outputs hsinkIds'
  obtain ⟨sources, hsources, hsourcesSub⟩ := exists_readForComponentAdapter hsub hsources'
  obtain ⟨sinks, hsinks, hsinksSub⟩ := exists_readForComponentAdapter hsub' hsinks'
  refine ⟨sources ++ sinks, loadComponents_eq_ok.mpr ⟨sourceIds, hsourceIds, sinkIds, hsinkIds,
    sources, hsources, sinks, hsinks, fun trafo htrafo => hvalidSources trafo (hsourcesSub htrafo),
    fun trafo htrafo => hvalidSinks trafo (hsinksSub htrafo), rfl⟩, ?_⟩
  exact List.append_subset.mpr ⟨List.subset_append_of_subset_left _ hsourcesSub,
    List.subset_append_of_subset_right _ hsinksSub⟩

/-- Components which a wiring uses are as they are read. -/
theorem readBy_of_loaded (hids : ∀ id revision, read id = .ok revision → revision.id = id)
    {numerals : NumeralTables} {config : ComponentAdapterConfig}
    {wiring : WorkflowWiring (WiringData J)} {trafos : List (Revision V (WiringData J))}
    (h : loadComponenAdapterWiringsComponents numerals config (uniformReader read) wiring =
      .ok trafos) : ReadBy read trafos := by
  obtain ⟨_, -, _, -, sources, hsources, sinks, hsinks, -, -, rfl⟩ := loadComponents_eq_ok.mp h
  have hread (ids : List UUID) (trafos : List (Revision V (WiringData J)))
      (h : readForComponentAdapter (uniformReader read) ids = .ok trafos) : ReadBy read trafos := by
    obtain ⟨entries, hentries, rfl⟩ := readForComponentAdapter_eq_ok.mp h
    intro trafo htrafo
    obtain ⟨entry, hentry, rfl⟩ := List.mem_map.mp htrafo
    obtain ⟨-, hread⟩ := (mem_of_readMultiple hentries).mp hentry
    rwa [hids _ _ hread]
  intro trafo htrafo
  rcases List.mem_append.mp htrafo with htrafo | htrafo
  · exact hread _ _ hsources trafo htrafo
  · exact hread _ _ hsinks trafo htrafo

end Adapter

/-! ## Imported components -/

section Imports

variable {tools : CodeTools V D} {read : UUID → Except StoreError (Revision V D)}
  {trafos trafos' : List (Revision V D)}

/-- Entries of a filled dictionary which are imported are read, and so is what they ask for. -/
theorem read_of_text {load : TrafoKey → Except StoreError (Revision V D)} {levels : ℕ}
    {wanted : List TrafoKey} {loaded : List (TrafoKey × Revision V D)}
    (hloaded : fill load (directImports tools) levels wanted (initialEntries trafos) =
      some (.ok loaded)) {found : ImportedText} {trafo : Revision V D}
    (hentry : (TrafoKey.text found, trafo) ∈ loaded) :
    load (.text found) = .ok trafo ∧
      ∃ asked, directImports tools trafo = .ok asked ∧ asked ⊆ keys loaded := by
  refine (closed_of_fill hloaded hentry).resolve_left fun hinitial => ?_
  exact text_not_mem_initialEntries found (List.mem_map_of_mem hinitial)

/-- Keys which code asks for are texts. -/
theorem text_of_directImports {trafo : Revision V D} {asked : List TrafoKey}
    (h : directImports tools trafo = .ok asked) {key : TrafoKey} (hkey : key ∈ asked) :
    ∃ found, key = .text found := by
  unfold directImports at h
  split at h
  · obtain rfl := Except.ok.inj h
    exact absurd hkey List.not_mem_nil
  · cases h
  · obtain ⟨imports, -, rfl⟩ := map_eq_ok.mp h
    obtain ⟨found, -, rfl⟩ := List.mem_map.mp hkey
    exact ⟨found, rfl⟩

/-- The keys of a dictionary which are texts. -/
def TextIn (loaded : List (TrafoKey × Revision V D)) (key : TrafoKey) : Prop :=
  ∃ found trafo, key = .text found ∧ (TrafoKey.text found, trafo) ∈ loaded

/-- What a loaded component asks for is imported. -/
theorem textIn_of_directImports {loaded : List (TrafoKey × Revision V D)} {trafo : Revision V D}
    {asked : List TrafoKey} (h : directImports tools trafo = .ok asked)
    (hsub : asked ⊆ keys loaded) {key : TrafoKey} (hkey : key ∈ asked) : TextIn loaded key := by
  obtain ⟨found, rfl⟩ := text_of_directImports h hkey
  obtain ⟨⟨_, trafo⟩, hentry, rfl⟩ := List.mem_map.mp (hsub hkey)
  exact ⟨found, trafo, rfl, hentry⟩

/-- The imported components are those whose keys are texts. -/
theorem mem_imported_iff {load : TrafoKey → Except StoreError (Revision V D)} {levels : ℕ}
    {wanted : List TrafoKey} {loaded : List (TrafoKey × Revision V D)}
    (hloaded : fill load (directImports tools) levels wanted (initialEntries trafos) =
      some (.ok loaded)) (hwanted : ∀ key ∈ wanted, ∃ found, key = .text found)
    {trafo : Revision V D} :
    trafo ∈ (loaded.filter fun entry =>
        entry.1 ∉ (initialComponents trafos).map fun trafo => .id trafo.id).map Prod.snd ↔
      ∃ found, (TrafoKey.text found, trafo) ∈ loaded := by
  constructor
  · intro htrafo
    obtain ⟨entry, hentry, rfl⟩ := List.mem_map.mp htrafo
    obtain ⟨hentry, hnew⟩ := List.mem_filter.mp hentry
    have hnotInitial : entry ∉ initialEntries trafos := by
      intro hin
      obtain ⟨given, hgiven, rfl⟩ := List.mem_map.mp hin
      exact of_decide_eq_true hnew (List.mem_map.mpr ⟨given, hgiven, rfl⟩)
    have hasks : ∀ key, (∃ found, key = TrafoKey.text found) → ∀ trafo, load key = .ok trafo →
        ∀ asked, directImports tools trafo = .ok asked →
          ∀ key' ∈ asked, ∃ found, key' = TrafoKey.text found :=
      fun _ _ _ _ _ hasked _ hkey => text_of_directImports hasked hkey
    obtain ⟨found, hkey⟩ :=
      (property_of_fill hasks hloaded hwanted hentry).resolve_left hnotInitial
    exact ⟨found, hkey ▸ hentry⟩
  · rintro ⟨found, hentry⟩
    refine List.mem_map.mpr ⟨_, List.mem_filter.mpr ⟨hentry, decide_eq_true fun hin => ?_⟩, rfl⟩
    obtain ⟨given, -, hgiven⟩ := List.mem_map.mp hin
    exact TrafoKey.noConfusion hgiven

/-- What the initial components ask for are texts. -/
theorem text_of_initialImports {lists : List (List TrafoKey)}
    (hlists : (initialComponents trafos).mapM (directImports tools) = .ok lists) :
    ∀ key ∈ lists.flatten, ∃ found, key = .text found := by
  intro key hkey
  obtain ⟨asked, hasked, hkey⟩ := List.mem_flatten.mp hkey
  obtain ⟨trafo, -, hdirect⟩ := exists_argument_of_mapM hlists hasked
  exact text_of_directImports hdirect hkey

/-- What loaded components import is read under its id. -/
theorem readBy_of_imported (hids : ∀ id revision, read id = .ok revision → revision.id = id)
    {levels : ℕ} {imported : List (Revision V D)}
    (h : readComponentImportsRecursively tools (uniformReader read).imported levels trafos =
      some (.ok imported)) : ReadBy read imported := by
  obtain ⟨lists, hlists, loaded, hloaded, rfl⟩ := readComponentImports_eq_ok.mp h
  intro trafo htrafo
  obtain ⟨found, hentry⟩ := (mem_imported_iff hloaded (text_of_initialImports hlists)).mp htrafo
  have hread : read found.id = .ok trafo := (read_of_text hloaded hentry).1
  rwa [hids _ _ hread]

/-- Fewer revisions have fewer components among them. -/
theorem initialComponents_subset (hread : ReadBy read trafos') (hsub : trafos ⊆ trafos') :
    initialComponents trafos ⊆ initialComponents trafos' := by
  intro trafo htrafo
  obtain ⟨hmem, htype⟩ := List.mem_filter.mp (mem_of_mem_dictById htrafo)
  have hcomponents : ReadBy read (trafos'.filter fun trafo => trafo.type = .component) :=
    hread.subset (List.filter_subset_self _)
  exact hcomponents.mem_dictById_iff.mpr (List.mem_filter.mpr ⟨hsub hmem, htype⟩)

/-- Fewer components import no more. -/
theorem exists_imports_of_subset (hread : ReadBy read trafos') (hsub : trafos ⊆ trafos')
    {levels' : ℕ} {imported' : List (Revision V D)}
    (h : readComponentImportsRecursively tools (uniformReader read).imported levels' trafos' =
      some (.ok imported')) :
    ∃ levels imported, readComponentImportsRecursively tools (uniformReader read).imported levels
      trafos = some (.ok imported) ∧ imported ⊆ imported' := by
  obtain ⟨lists', hlists', loaded', hloaded', rfl⟩ := readComponentImports_eq_ok.mp h
  have hinitial := initialComponents_subset hread hsub
  obtain ⟨lists, hlists⟩ : ∃ lists,
      (initialComponents trafos).mapM (directImports tools) = .ok lists := by
    refine exists_mapM fun trafo htrafo => ?_
    obtain ⟨asked, -, hasked⟩ := exists_of_mapM hlists' (hinitial htrafo)
    exact ⟨asked, hasked⟩
  have hwanted : ∀ key ∈ lists.flatten, TextIn loaded' key := by
    intro key hkey
    obtain ⟨asked, hasked, hkey⟩ := List.mem_flatten.mp hkey
    obtain ⟨trafo, htrafo, hdirect⟩ := exists_argument_of_mapM hlists hasked
    obtain ⟨asked', hasked', hdirect'⟩ := exists_of_mapM hlists' (hinitial htrafo)
    obtain rfl := Except.ok.inj (hdirect.symm.trans hdirect')
    exact textIn_of_directImports hdirect (fun key hkey =>
      (subset_of_fill hloaded').2 key (List.mem_flatten.mpr ⟨_, hasked', hkey⟩)) hkey
  have hclosed : ∀ key, TextIn loaded' key → ∃ trafo asked,
      (uniformReader read).imported key = .ok trafo ∧ directImports tools trafo = .ok asked ∧
        ∀ key' ∈ asked, TextIn loaded' key' := by
    rintro _ ⟨found, trafo, rfl, hentry⟩
    obtain ⟨hload, asked, hasked, hsubset⟩ := read_of_text hloaded' hentry
    exact ⟨trafo, asked, hload, hasked,
      fun key' hkey' => textIn_of_directImports hasked hsubset hkey'⟩
  have hfinite : ∀ key, TextIn loaded' key → key ∈ (keys loaded').toFinset := by
    rintro _ ⟨found, trafo, rfl, hentry⟩
    exact List.mem_toFinset.mpr (List.mem_map_of_mem hentry)
  obtain ⟨loaded, hloaded⟩ := exists_fill hclosed hfinite hwanted
    (Nat.lt_succ_self ((keys loaded').toFinset.filter
      fun key => key ∉ keys (initialEntries trafos)).card)
  refine ⟨_, _, readComponentImports_eq_ok.mpr ⟨lists, hlists, loaded, hloaded, rfl⟩, ?_⟩
  intro trafo htrafo
  obtain ⟨found, hentry⟩ := (mem_imported_iff hloaded (text_of_initialImports hlists)).mp htrafo
  have hnotInitial : (TrafoKey.text found, trafo) ∉ initialEntries trafos := fun hin =>
    text_not_mem_initialEntries found (List.mem_map_of_mem hin)
  have hasks : ∀ key, TextIn loaded' key → ∀ trafo, (uniformReader read).imported key = .ok trafo →
      ∀ asked, directImports tools trafo = .ok asked → ∀ key' ∈ asked, TextIn loaded' key' := by
    intro key hkey trafo hload asked hasked
    obtain ⟨trafo', asked', hload', hasked', hall⟩ := hclosed key hkey
    obtain rfl := Except.ok.inj (hload.symm.trans hload')
    obtain rfl := Except.ok.inj (hasked.symm.trans hasked')
    exact hall
  obtain ⟨found', trafo', hkey, hentry'⟩ :=
    (property_of_fill hasks hloaded hwanted hentry).resolve_left hnotInitial
  obtain rfl := TrafoKey.text.inj hkey
  have hsame := (read_of_text hloaded' hentry').1.symm.trans (read_of_text hloaded hentry).1
  rw [← Except.ok.inj hsame]
  exact (mem_imported_iff hloaded' (text_of_initialImports hlists')).mpr ⟨found, hentry'⟩

end Imports

end HetidaDesigner
