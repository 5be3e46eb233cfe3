import HetidaDesigner.Exportimport.Importing
import HetidaDesigner.Store.StoredWirings
import HetidaDesigner.Trafoutils.Selections

/-!
# Which wirings a request stores

A revision which a request for several updates creates is stored with its test wiring as the
request wants it, and with its release wiring, too, unless the request wants release wirings to be
removed altogether: that option gets lost. A draft which the request releases has only one wiring,
which gets stripped for both purposes.
-/

namespace HetidaDesigner

open Checks KeyedList LastEntry Database

/-! ## What a request wants -/

/-- Whether options keep the wirings of an adapter. -/
def keepsAdapter (strip keepOnly : List AdapterId) (id : AdapterId) : Bool :=
  id ∉ strip ∧ (keepOnly = [] ∨ id ∈ keepOnly)

namespace UpdateQuery

/-- Whether the request keeps the wirings of an adapter in test wirings. -/
def keepsTest (query : UpdateQuery) : AdapterId → Bool :=
  keepsAdapter query.stripWiringsWithAdapterIds query.keepOnlyWiringsWithAdapterIds

/-- Whether the request keeps the wirings of an adapter in release wirings. -/
def keepsRelease (query : UpdateQuery) : AdapterId → Bool :=
  keepsAdapter query.stripReleaseWiringsWithAdapterIds query.keepOnlyReleaseWiringsWithAdapterIds

variable {V D : Type}

/-- The wirings which the request wants to be stored for a revision. -/
def wantedWirings (query : UpdateQuery) (given : Revision V D) :
    WorkflowWiring D × Option (WorkflowWiring D) :=
  (if query.stripWirings then .empty else given.testWiring.keepAdapters query.keepsTest,
    if query.stripReleaseWirings then none
    else given.releaseWiring.map (WorkflowWiring.keepAdapters query.keepsRelease))

/-- Removing release wirings is not requested, or there is none to remove. -/
def ReleaseWiringStays (query : UpdateQuery) (given : Revision V D) : Prop :=
  query.stripReleaseWirings = true → given.releaseWiring = none

/-- Both wirings are to be kept alike: the test wiring is replaced anyway, or the options for test
wirings and for release wirings agree on the adapters of its wirings. -/
def WiringsAlike (query : UpdateQuery) (given : Revision V D) : Prop :=
  query.stripWirings = true ∨
    ∀ wiring ∈ given.testWiring.inputWirings ++ given.testWiring.outputWirings,
      query.keepsTest wiring.adapterId = query.keepsRelease wiring.adapterId

end UpdateQuery

/-! ## Stripping -/

section Stripping

variable {V D : Type} {query : UpdateQuery} {wiring : WorkflowWiring D} {strip keepOnly : List AdapterId}

/-- Keeping the wirings of some adapters among those of others. -/
theorem WorkflowWiring.keepAdapters_keepAdapters (p q : AdapterId → Bool)
    (wiring : WorkflowWiring D) : (wiring.keepAdapters p).keepAdapters q =
      wiring.keepAdapters fun id => p id && q id := by
  simp only [keepAdapters, List.filter_filter, Bool.and_comm]

/-- Keeping the wirings of all adapters. -/
theorem WorkflowWiring.keepAdapters_of_all {p : AdapterId → Bool} (hp : ∀ id, p id = true) :
    wiring.keepAdapters p = wiring := by
  simp [keepAdapters, hp]

/-- Stripping keeps the wirings of the adapters which the options keep. -/
theorem WorkflowWiring.stripAdapters_eq (strip keepOnly : List AdapterId)
    (wiring : WorkflowWiring D) :
    wiring.stripAdapters strip keepOnly = wiring.keepAdapters (keepsAdapter strip keepOnly) := by
  have hstrip : (if strip = [] then wiring else wiring.keepAdapters fun id => id ∉ strip) =
      wiring.keepAdapters fun id => id ∉ strip := by
    split
    · rename_i hnil
      rw [keepAdapters_of_all]
      intro id
      simp [hnil]
    · rfl
  unfold stripAdapters
  rw [hstrip]
  dsimp only
  split
  · rename_i hnil
    congr 1
    funext id
    simp [keepsAdapter, hnil]
  · rename_i hne
    rw [keepAdapters_keepAdapters]
    congr 1
    funext id
    simp [keepsAdapter, hne]

/-- Nothing is kept of an empty wiring. -/
theorem WorkflowWiring.keepAdapters_empty (p : AdapterId → Bool) :
    (WorkflowWiring.empty : WorkflowWiring D).keepAdapters p = .empty := rfl

/-- Different tests keep the same wirings exactly if they agree on the adapters of all wirings. -/
theorem WorkflowWiring.keepAdapters_eq_iff {p q : AdapterId → Bool} :
    wiring.keepAdapters p = wiring.keepAdapters q ↔
      ∀ w ∈ wiring.inputWirings ++ wiring.outputWirings, p w.adapterId = q w.adapterId := by
  have hfilter (wirings : List (Wiring D)) :
      (wirings.filter fun w => p w.adapterId) = (wirings.filter fun w => q w.adapterId) ↔
        ∀ w ∈ wirings, p w.adapterId = q w.adapterId := by
    refine ⟨fun h w hw => Bool.eq_iff_iff.mpr ?_, fun h => List.filter_congr h⟩
    have hmem := congrArg (w ∈ ·) h
    simpa only [List.mem_filter, hw, true_and, eq_iff_iff] using hmem
  simp only [keepAdapters, WorkflowWiring.mk.injEq, and_true, hfilter, List.forall_mem_append]

/-- Stripping with no options. -/
theorem stripWirings_none (revision : Revision V D) : revision.stripWirings .none = revision := by
  have hmap : revision.releaseWiring.map (WorkflowWiring.stripAdapters [] []) =
      revision.releaseWiring := congrFun Option.map_id _
  unfold TransformationRevision.stripWirings StripOptions.none
  dsimp only
  rw [if_neg Bool.false_ne_true, if_neg Bool.false_ne_true, hmap]
  rfl

/-- The wirings after stripping. -/
theorem wirings_stripWirings (options : StripOptions) (revision : Revision V D) :
    (revision.stripWirings options).wirings =
      (if options.stripWiring then .empty else revision.testWiring.keepAdapters
          (keepsAdapter options.stripWiringsWithAdapterIds options.keepOnlyWiringsWithAdapterIds),
        if options.stripReleaseWiring then none else revision.releaseWiring.map
          (WorkflowWiring.keepAdapters (keepsAdapter options.stripReleaseWiringsWithAdapterIds
            options.keepOnlyReleaseWiringsWithAdapterIds))) := by
  have hstrip : WorkflowWiring.stripAdapters (D := D) options.stripReleaseWiringsWithAdapterIds
      options.keepOnlyReleaseWiringsWithAdapterIds = WorkflowWiring.keepAdapters (keepsAdapter
        options.stripReleaseWiringsWithAdapterIds options.keepOnlyReleaseWiringsWithAdapterIds) :=
    funext fun wiring => WorkflowWiring.stripAdapters_eq _ _ wiring
  unfold TransformationRevision.stripWirings TransformationRevision.wirings
  dsimp only
  rw [WorkflowWiring.stripAdapters_eq, hstrip]
  refine Prod.ext ?_ ?_
  · dsimp only
    split
    · exact WorkflowWiring.keepAdapters_empty _
    · rfl
  · dsimp only
    split <;> rfl

/-- The wirings which an update with the config of a request stores. -/
def storedWirings (query : UpdateQuery) (shared : Bool) (given : Revision V D) :
    WorkflowWiring D × Option (WorkflowWiring D) :=
  if shared then
    (given.stripSharedWiring query.multiImportConfig.putOptions.strip).wirings
  else (given.stripWirings query.multiImportConfig.putOptions.strip).wirings

/-- What is stored for a revision with two wirings. -/
theorem storedWirings_of_separate (given : Revision V D) : storedWirings query false given =
    (if query.stripWirings then .empty else given.testWiring.keepAdapters query.keepsTest,
      given.releaseWiring.map (WorkflowWiring.keepAdapters query.keepsRelease)) :=
  wirings_stripWirings query.multiImportConfig.putOptions.strip given

/-- What is stored for a revision with one wiring. -/
theorem storedWirings_of_shared {given : Revision V D}
    (hshared : given.releaseWiring = some given.testWiring) : storedWirings query true given =
    if query.stripWirings then
      (.empty, some (given.testWiring.keepAdapters query.keepsRelease))
    else
      ((given.testWiring.keepAdapters query.keepsTest).keepAdapters query.keepsRelease,
        some ((given.testWiring.keepAdapters query.keepsTest).keepAdapters query.keepsRelease)) := by
  have hor : (query.multiImportConfig.putOptions.strip.stripWiring ||
      query.multiImportConfig.putOptions.strip.stripReleaseWiring) = query.stripWirings :=
    Bool.or_false _
  rw [storedWirings, if_pos rfl, TransformationRevision.stripSharedWiring, hor]
  split
  · rename_i hstrip
    rw [wirings_stripWirings, hshared]
    exact congrArg (Prod.mk · _) (if_pos hstrip)
  · simp only [WorkflowWiring.stripAdapters_eq]
    rfl

/-- A revision with two wirings is stored as wanted unless it has a release wiring which is to be
removed. -/
theorem storedWirings_separate_eq_iff (given : Revision V D) :
    storedWirings query false given = query.wantedWirings given ↔
      query.ReleaseWiringStays given := by
  rw [storedWirings_of_separate, UpdateQuery.wantedWirings, UpdateQuery.ReleaseWiringStays,
    Prod.mk.injEq, and_iff_right rfl]
  cases query.stripReleaseWirings with
  | false => simp
  | true => simp

/-- A revision with one wiring is stored as wanted if, moreover, both purposes want the same. -/
theorem storedWirings_shared_eq_iff {given : Revision V D}
    (hshared : given.releaseWiring = some given.testWiring) :
    storedWirings query true given = query.wantedWirings given ↔
      query.ReleaseWiringStays given ∧ query.WiringsAlike given := by
  have hstays : query.ReleaseWiringStays given ↔ query.stripReleaseWirings = false := by
    rw [UpdateQuery.ReleaseWiringStays, hshared]
    cases query.stripReleaseWirings <;> simp
  rw [storedWirings_of_shared hshared, UpdateQuery.wantedWirings, hstays, UpdateQuery.WiringsAlike,
    ← WorkflowWiring.keepAdapters_eq_iff, hshared, Option.map_some]
  cases hrelease : query.stripReleaseWirings with
  | true => cases query.stripWirings <;> simp
  | false =>
    cases hstrip : query.stripWirings with
    | true => simp
    | false =>
      simp only [Bool.false_eq_true, if_false, Prod.mk.injEq, Option.some.injEq, true_and,
        false_or]
      constructor
      · rintro ⟨htest, hrelease⟩
        exact htest.symm.trans hrelease
      · intro halike
        -- what both purposes keep is kept when stripping a second time
        have htwice : (given.testWiring.keepAdapters query.keepsTest).keepAdapters
            query.keepsRelease = given.testWiring.keepAdapters query.keepsRelease := by
          rw [halike, WorkflowWiring.keepAdapters_keepAdapters]
          simp only [Bool.and_self]
        exact ⟨htwice.trans halike.symm, htwice⟩

end Stripping

/-! ## The updates of a request -/

section Updates

variable [UnicodeData] {V D : Type} [DecidableEq V] [DecidableEq D] {db db' : Database V D}
  {tools : CodeTools V D} {query : UpdateQuery} {shared : UUID → Bool}

/-- An update keeps the wirings of other revisions. -/
theorem wirings_updateSent_of_ne {surroundings : Surroundings} {options : PutOptions}
    {wiringShared : Bool} {payload stored : Revision V D}
    (h : updateSent tools surroundings db options wiringShared payload = .ok (db', stored))
    {id : UUID} (hid : id ≠ payload.id) : db'.wirings id = db.wirings id := by
  unfold updateSent at h
  split at h
  · refine wirings_update_of_ne h ?_
    unfold TransformationRevision.stripSharedWiring
    split <;> exact hid
  · exact wirings_update_of_ne h hid

/-- A revision which did not exist is stored with what is left of its wirings. -/
theorem wirings_updateSent_of_new {surroundings : Surroundings} {wiringShared : Bool}
    {payload stored : Revision V D}
    (h : updateSent tools surroundings db query.multiImportConfig.putOptions wiringShared payload =
      .ok (db', stored)) (hnew : db.wirings payload.id = none) :
    db'.wirings payload.id = some (storedWirings query wiringShared payload) := by
  unfold updateSent at h
  unfold storedWirings
  split at h
  · rename_i hshared
    have hid : (payload.stripSharedWiring query.multiImportConfig.putOptions.strip).id =
        payload.id := by
      unfold TransformationRevision.stripSharedWiring
      split <;> rfl
    rw [← hid] at hnew ⊢
    rw [wirings_update_of_new h hnew, if_pos hshared, stripWirings_none]
  · rename_i hshared
    rw [wirings_update_of_new h hnew, if_neg hshared]

/-- The loop keeps the wirings of revisions which it does not process, and what the report says
about them. -/
theorem importTrafos_of_notMem {surroundings : UUID → Surroundings}
    {config : MultipleTrafosUpdateConfig} {trafos : List (Revision V D)}
    {report report' : UpdateReport} {aborted : Bool}
    (h : importTrafos tools surroundings config shared trafos db report =
      .ok (db', report', aborted)) {id : UUID} (hid : ∀ trafo ∈ trafos, trafo.id ≠ id) :
    db'.wirings id = db.wirings id ∧ report' id = report id := by
  induction trafos generalizing db report with
  | nil =>
    obtain ⟨rfl, rfl, -⟩ := by simpa [importTrafos] using h
    exact ⟨rfl, rfl⟩
  | cons trafo rest ih =>
    obtain ⟨hfirst, hrest⟩ := List.forall_mem_cons.mp hid
    have hreport (status : UpdateProcessStatus) :
        Function.update report trafo.id (some status) id = report id :=
      Function.update_of_ne hfirst.symm _ _
    unfold importTrafos at h
    split at h
    · rename_i next stored hupdate
      obtain ⟨hwirings, hsame⟩ := ih h hrest
      rw [hwirings, hsame, hreport]
      exact ⟨wirings_updateSent_of_ne hupdate hfirst.symm, rfl⟩
    · split at h
      · split at h
        · obtain ⟨rfl, rfl, -⟩ := by simpa using h
          exact ⟨rfl, hreport _⟩
        · obtain ⟨hwirings, hsame⟩ := ih h hrest
          rw [hwirings, hsame, hreport]
          exact ⟨rfl, rfl⟩
      · cases h

/-- Of a revision which the loop creates the wirings are stored as the config strips them. -/
theorem wirings_importTrafos {surroundings : UUID → Surroundings}
    {trafos : List (Revision V D)} {report report' : UpdateReport} {aborted : Bool}
    (h : importTrafos tools surroundings query.multiImportConfig shared trafos db report =
      .ok (db', report', aborted)) (hnodup : (trafos.map fun trafo => trafo.id).Nodup) {id : UUID}
    (hnew : db.wirings id = none) (hbefore : report id ≠ some .success)
    (hsuccess : report' id = some .success) :
    ∃ trafo ∈ trafos, trafo.id = id ∧
      db'.wirings id = some (storedWirings query (shared id) trafo) := by
  induction trafos generalizing db report with
  | nil =>
    obtain ⟨-, rfl, -⟩ := by simpa [importTrafos] using h
    exact absurd hsuccess hbefore
  | cons trafo rest ih =>
    rw [List.map_cons, List.nodup_cons] at hnodup
    have hothers : ∀ other ∈ rest, other.id ≠ trafo.id := fun other hother heq =>
      hnodup.1 (List.mem_map.mpr ⟨other, hother, heq⟩)
    unfold importTrafos at h
    split at h
    · rename_i next stored hupdate
      by_cases hid : id = trafo.id
      · refine ⟨trafo, List.mem_cons_self, hid.symm, ?_⟩
        rw [hid] at hnew ⊢
        rw [(importTrafos_of_notMem h hothers).1, wirings_updateSent_of_new hupdate hnew]
      · rw [← wirings_updateSent_of_ne hupdate hid] at hnew
        rw [← Function.update_of_ne hid (some .success) report] at hbefore
        obtain ⟨found, hfound, hstored⟩ := ih h hnodup.2 hnew hbefore
        exact ⟨found, List.mem_cons_of_mem _ hfound, hstored⟩
    · have hfailed : Function.update report trafo.id (some .failed) id ≠ some .success := by
        rw [Function.update_apply]
        split
        · decide
        · exact hbefore
      split at h
      · split at h
        · obtain ⟨-, rfl, -⟩ := by simpa using h
          exact absurd hsuccess hfailed
        · obtain ⟨found, hfound, hstored⟩ := ih h hnodup.2 hnew hfailed
          exact ⟨found, List.mem_cons_of_mem _ hfound, hstored⟩
      · cases h

end Updates

/-! ## Deprecations afterwards -/

section Deprecations

variable [UnicodeData] {V D : Type} [DecidableEq V] [DecidableEq D] {db db' : Database V D}
  {tools : CodeTools V D} {uuid4 : UUID → ℕ → UUID} {surroundings : UUID → Surroundings}

/-- Deprecating a revision with the stored wirings keeps all wirings. -/
theorem wirings_deprecateOutdated {tr : Revision V D}
    (hstored : db.wirings tr.id = some tr.wirings)
    (h : deprecateOutdated tools uuid4 surroundings db tr = .ok db') :
    db'.wirings = db.wirings := by
  obtain ⟨deprecated, hdeprecated, h⟩ := bind_eq_ok.mp h
  obtain ⟨hid, hwirings, hstate⟩ :=
    TransformationRevision.deprecateRevision_wirings (mapError_eq_ok.mp hdeprecated)
  rw [← hid, ← hwirings] at hstored
  unfold updateOrCreateTransformationRevision at h
  split at h
  · rename_i after stored hupdate
    obtain rfl := Except.ok.inj h
    exact wirings_update_of_disabled hupdate (stripWirings_none _) hstate hstored
  · split at h
    · obtain rfl := Except.ok.inj h
      rfl
    · cases h

/-- Deprecating revisions one after the other keeps all wirings. -/
theorem wirings_deprecateAll {trs : List (Revision V D)}
    (hstored : ∀ tr ∈ trs, db.wirings tr.id = some tr.wirings)
    (h : trs.foldlM (deprecateOutdated tools uuid4 surroundings) db = .ok db') :
    db'.wirings = db.wirings := by
  induction trs generalizing db with
  | nil =>
    obtain rfl := return_eq_ok.mp h
    rfl
  | cons tr rest ih =>
    rw [List.foldlM_cons] at h
    obtain ⟨next, hnext, h⟩ := bind_eq_ok.mp h
    obtain ⟨hfirst, hrest⟩ := List.forall_mem_cons.mp hstored
    have hsame := wirings_deprecateOutdated hfirst hnext
    rw [← hsame] at hrest ⊢
    exact ih hrest h

/-- Deprecating the outdated releases of a group keeps all wirings. -/
theorem wirings_deprecateAllButLatestInGroup {revisionGroupId : UUID}
    (h : deprecateAllButLatestInGroup tools uuid4 surroundings db revisionGroupId = .ok db') :
    db'.wirings = db.wirings := by
  obtain ⟨trList, hselect, h⟩ := bind_eq_ok.mp h
  obtain ⟨-, h⟩ := require_bind_eq_ok.mp h
  refine wirings_deprecateAll (fun tr htr => ?_) h
  obtain ⟨row, hrow, hvalid⟩ := exists_argument_of_mapM hselect (mem_of_mem_outdatedReleases htr)
  obtain ⟨hid, hwirings⟩ := TransformationRevision.validate_wirings (mapError_eq_ok.mp hvalid)
  rw [hid, hwirings, Database.wirings, find_of_mem (List.mem_of_mem_filter hrow)]
  rfl

/-- Deprecating in several groups keeps all wirings. -/
theorem wirings_deprecateInGroups {surroundings : RequestSurroundings} {groups : List UUID}
    (h : groups.foldlM (fun db revisionGroupId =>
      deprecateAllButLatestInGroup tools (surroundings.loaded revisionGroupId)
        (surroundings.deprecations revisionGroupId) db revisionGroupId) db = .ok db') :
    db'.wirings = db.wirings := by
  induction groups generalizing db with
  | nil =>
    obtain rfl := return_eq_ok.mp h
    rfl
  | cons group rest ih =>
    rw [List.foldlM_cons] at h
    obtain ⟨next, hnext, h⟩ := bind_eq_ok.mp h
    rw [ih h, wirings_deprecateAllButLatestInGroup hnext]

end Deprecations

/-! ## Requests -/

section Requests

variable [UnicodeData] {V D : Type} [DecidableEq V] [DecidableEq D] {db db' : Database V D}
  {tools : CodeTools V D} {query : UpdateQuery} {surroundings : RequestSurroundings}
  {ofPythonCode : PyStr → Option (Revision V D)} {items : List (Revision V D ⊕ PyStr)}
  {report : UpdateReport}

omit [UnicodeData] [DecidableEq V] [DecidableEq D] in
/-- Revisions are found under their ids, the last one with an id in place of the others. -/
theorem lookup_sentTrafos (trafos : List (SentTrafo V D)) (id : UUID) :
    (transformationDict (trafos.map fun trafo => trafo.revision)).lookup id =
      (sentTrafo trafos id).map fun trafo => trafo.revision := by
  induction trafos using List.reverseRecOn with
  | nil => rfl
  | append_singleton trafos trafo ih =>
    rw [List.map_append, List.map_cons, List.map_nil, lookup_transformationDict_concat, ih,
      sentTrafo, sentTrafo, lastEntry_concat]
    by_cases hid : trafo.revision.id = id
    · rw [if_pos hid, if_pos hid.symm, Option.map_some]
    · rw [if_neg hid, if_neg (Ne.symm hid)]

omit [DecidableEq D] in
/-- A revision with a shared wiring has been released by the request. -/
theorem releaseWiring_of_shared {trafos : List (SentTrafo V D)}
    (h : sentTrafos ofPythonCode surroundings items query = .ok trafos) {trafo : SentTrafo V D}
    (htrafo : trafo ∈ trafos) (hshared : trafo.wiringShared = true) :
    trafo.revision.releaseWiring = some trafo.revision.testWiring := by
  obtain ⟨draft, -, hdraft⟩ := exists_argument_of_mapM h htrafo
  unfold releaseDraft at hdraft
  split at hdraft
  · obtain ⟨released, hreleased, hdraft⟩ := bind_eq_ok.mp hdraft
    obtain rfl := return_eq_ok.mp hdraft
    unfold TransformationRevision.release at hreleased
    obtain ⟨-, hreleased⟩ := require_bind_eq_ok.mp hreleased
    obtain ⟨-, -, hreleased⟩ := bind_eq_ok.mp hreleased
    obtain rfl := return_eq_ok.mp hreleased
    rfl
  · obtain rfl := return_eq_ok.mp hdraft
    cases hshared

/-- The wirings of a revision which a request creates. -/
theorem wirings_importImportable {trafos : List (SentTrafo V D)}
    (h : importImportable tools surroundings db trafos query.filterParams query.multiImportConfig =
      .ok (db', report)) {id : UUID} (hnew : db.find id = none)
    (hsuccess : report id = some .success) :
    ∃ given, sentTrafo trafos id = some given ∧
      db'.wirings id = some (storedWirings query given.wiringShared given.revision) := by
  unfold importImportable at h
  obtain ⟨processed, hprocessed, h⟩ := bind_eq_ok.mp h
  obtain ⟨⟨next, report', aborted⟩, hloop, h⟩ := bind_eq_ok.mp h
  obtain ⟨hnodup, hfound⟩ := filterAndOrderTrafos_eq_ok (mapError_eq_ok.mp hprocessed)
  have hafter : report' = report ∧ db'.wirings = next.wirings := by
    dsimp only at h
    split at h
    · obtain ⟨after, hafter, h⟩ := bind_eq_ok.mp h
      obtain ⟨rfl, rfl⟩ := Prod.mk.inj (return_eq_ok.mp h)
      exact ⟨rfl, wirings_deprecateInGroups (mapError_eq_ok.mp hafter)⟩
    · obtain ⟨rfl, rfl⟩ := Prod.mk.inj (return_eq_ok.mp h)
      exact ⟨rfl, rfl⟩
  obtain ⟨rfl, hwirings⟩ := hafter
  have hbefore : initialReport (trafos.map fun trafo => trafo.revision) processed id ≠
      some .success := by
    unfold initialReport
    split
    · split <;> decide
    · decide
  have hnone : db.wirings id = none := by rw [Database.wirings, hnew, Option.map_none]
  obtain ⟨trafo, htrafo, rfl, hstored⟩ :=
    wirings_importTrafos (mapError_eq_ok.mp hloop) hnodup hnone hbefore hsuccess
  have hlookup := hfound trafo htrafo
  rw [lookup_sentTrafos] at hlookup
  obtain ⟨given, hgiven, rfl⟩ := Option.map_eq_some_iff.mp hlookup
  refine ⟨given, hgiven, ?_⟩
  rw [hwirings, hstored, sharesWiring, hgiven]
  rfl

/-- A revision which a request creates is stored with the wanted wirings exactly if there is no
release wiring to be removed and, for a draft which the request releases, both wirings are to be
kept alike. -/
theorem wantedWirings_stored_iff {trafos : List (SentTrafo V D)}
    (hsent : sentTrafos ofPythonCode surroundings items query = .ok trafos)
    (h : updateTransformationRevisions tools ofPythonCode surroundings db items query =
      .ok (db', report)) {id : UUID} (hnew : db.find id = none)
    (hsuccess : report id = some .success) :
    ∃ given, sentTrafo trafos id = some given ∧
      (db'.wirings id = some (query.wantedWirings given.revision) ↔
        query.ReleaseWiringStays given.revision ∧
          (given.wiringShared = true → query.WiringsAlike given.revision)) := by
  unfold updateTransformationRevisions at h
  rw [hsent] at h
  obtain ⟨given, hgiven, hstored⟩ := wirings_importImportable h hnew hsuccess
  refine ⟨given, hgiven, ?_⟩
  rw [hstored, Option.some_inj]
  cases hshared : given.wiringShared with
  | false =>
    rw [storedWirings_separate_eq_iff]
    simp
  | true =>
    have hmem := (mem_of_lastEntry hgiven).1
    rw [storedWirings_shared_eq_iff (releaseWiring_of_shared hsent hmem hshared)]
    simp

end Requests

/-! ## A released workflow with two wirings -/

/-- A wiring of an input by an adapter. -/
def wiringOf (adapterId : PyStr) : WorkflowWiring Unit := ⟨[⟨.str adapterId, ()⟩], [], []⟩

/-- A released workflow whose inputs are wired by one adapter for tests and by another one. -/
def wiredWorkflow : Revision ℤ Unit :=
  { plainWorkflow 1 .released [] with
    testWiring := wiringOf "sql".toList
    releaseWiring := some (wiringOf "kafka".toList) }

/-- A query which removes the wirings of one adapter from test wirings, and possibly all release
wirings. -/
def stripQuery (stripReleaseWirings : Bool) : UpdateQuery where
  filterParams := allowAll true
  releaseDrafts := true
  allowOverwriteReleased := false
  updateComponentCode := true
  expandComponentCode := false
  stripWirings := false
  stripWiringsWithAdapterIds := [.str "sql".toList]
  keepOnlyWiringsWithAdapterIds := []
  stripReleaseWirings := stripReleaseWirings
  stripReleaseWiringsWithAdapterIds := []
  keepOnlyReleaseWiringsWithAdapterIds := [.str "kafka".toList, .str "blob".toList]
  abortOnError := false
  deprecateOlderRevisions := true

/-- Surroundings in which nothing happens. -/
def plainSurroundings : RequestSurroundings :=
  ⟨fun _ _ => 0, 10, fun _ _ _ => 0, fun _ => ⟨fun _ _ => 0, 10⟩, fun _ _ => ⟨fun _ _ => 0, 10⟩⟩

/-- The revisions which the request sends. -/
abbrev plainSent (query : UpdateQuery) : Except ValidationError (List (SentTrafo ℤ Unit)) :=
  @sentTrafos ℤ Unit asciiOnly _ (fun _ => none) plainSurroundings [.inl wiredWorkflow] query

/-- The request on the empty tables. -/
abbrev plainUpdate (query : UpdateQuery) : Except ImportError (Database ℤ Unit × UpdateReport) :=
  @updateTransformationRevisions ℤ Unit asciiOnly _ _ plainTools (fun _ => none) plainSurroundings
    .empty [.inl wiredWorkflow] query

/-- Release wirings are not removed if that is requested. -/
theorem releaseWiring_notRemoved :
    plainSent (stripQuery true) = .ok [⟨wiredWorkflow, false⟩] ∧
      (plainUpdate (stripQuery true)).toOption.any (fun result =>
        decide (result.2 1 = some .success ∧
          result.1.wirings 1 = some (.empty, some (wiringOf "kafka".toList)))) = true ∧
      (stripQuery true).wantedWirings wiredWorkflow = (.empty, none) := by
  refine ⟨rfl, ?_, rfl⟩
  decide +kernel

/-- The test wiring loses the wirings of the adapter, and the release wiring is kept. -/
theorem wantedWirings_stored : ∃ db' report, plainUpdate (stripQuery false) = .ok (db', report) ∧
    db'.wirings 1 = some ((stripQuery false).wantedWirings wiredWorkflow) := by
  have hrun : (plainUpdate (stripQuery false)).toOption.any (fun result =>
      decide (result.2 1 = some .success)) = true := by
    decide +kernel
  cases hupdate : plainUpdate (stripQuery false) with
  | error error =>
    rw [hupdate] at hrun
    cases hrun
  | ok result =>
    rw [hupdate] at hrun
    have hsent : plainSent (stripQuery false) = .ok [⟨wiredWorkflow, false⟩] := rfl
    obtain ⟨given, hgiven, hiff⟩ := @wantedWirings_stored_iff asciiOnly ℤ Unit _ _ _ _ _ _ _ _ _ _
      _ hsent hupdate 1 rfl (of_decide_eq_true hrun)
    obtain rfl : ⟨wiredWorkflow, false⟩ = given := Option.some.inj hgiven
    refine ⟨result.1, result.2, rfl, hiff.mpr ⟨fun h => ?_, fun h => ?_⟩⟩
    · cases h
    · cases h

end HetidaDesigner
