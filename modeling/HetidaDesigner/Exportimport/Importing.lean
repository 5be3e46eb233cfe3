import HetidaDesigner.Exportimport.LatestReleases

/-!
# Updating several revisions by one request

The endpoint `update_transformation_revisions` of `backend/service/transformation_router.py` and
`import_importable` of `exportimport/importing.py`: options which are query parameters become an
update config, the revisions are filtered and ordered, and each of them is updated or created.

A draft which the request releases has one wiring object for testing and for its release, so that
stripping the one wiring strips the other, too. Reading the code of components sent as text is a
parameter, and sets of ids are lists.
-/

namespace HetidaDesigner

open Checks LastEntry

/-- The config for updating several revisions. -/
structure MultipleTrafosUpdateConfig where
  allowOverwriteReleased : Bool
  updateComponentCode : Bool
  expandComponentCode : Bool
  stripWirings : Bool
  stripWiringsWithAdapterIds : List AdapterId
  keepOnlyWiringsWithAdapterIds : List AdapterId
  stripReleaseWirings : Bool
  stripReleaseWiringsWithAdapterIds : List AdapterId
  keepOnlyReleaseWiringsWithAdapterIds : List AdapterId
  abortOnError : Bool
  deprecateOlderRevisions : Bool

/-- The default values of the config. -/
def MultipleTrafosUpdateConfig.default : MultipleTrafosUpdateConfig where
  allowOverwriteReleased := false
  updateComponentCode := true
  expandComponentCode := false
  stripWirings := false
  stripWiringsWithAdapterIds := []
  keepOnlyWiringsWithAdapterIds := []
  stripReleaseWirings := false
  stripReleaseWiringsWithAdapterIds := []
  keepOnlyReleaseWiringsWithAdapterIds := []
  abortOnError := false
  deprecateOlderRevisions := false

/-- The query parameters of the endpoint; those which filter are put together. -/
structure UpdateQuery where
  filterParams : FilterParams
  releaseDrafts : Bool
  allowOverwriteReleased : Bool
  updateComponentCode : Bool
  expandComponentCode : Bool
  stripWirings : Bool
  stripWiringsWithAdapterIds : List AdapterId
  keepOnlyWiringsWithAdapterIds : List AdapterId
  stripReleaseWirings : Bool
  stripReleaseWiringsWithAdapterIds : List AdapterId
  keepOnlyReleaseWiringsWithAdapterIds : List AdapterId
  abortOnError : Bool
  deprecateOlderRevisions : Bool

/-- The config which the endpoint makes of the query. It passes `strip_release_wirings` on under
the name `strip_release_wiring`, which no field has, so the option keeps its default value. -/
def UpdateQuery.multiImportConfig (query : UpdateQuery) : MultipleTrafosUpdateConfig where
  allowOverwriteReleased := query.allowOverwriteReleased
  updateComponentCode := query.updateComponentCode
  expandComponentCode := query.expandComponentCode
  stripWirings := query.stripWirings
  stripWiringsWithAdapterIds := query.stripWiringsWithAdapterIds
  keepOnlyWiringsWithAdapterIds := query.keepOnlyWiringsWithAdapterIds
  stripReleaseWirings := MultipleTrafosUpdateConfig.default.stripReleaseWirings
  stripReleaseWiringsWithAdapterIds := query.stripReleaseWiringsWithAdapterIds
  keepOnlyReleaseWiringsWithAdapterIds := query.keepOnlyReleaseWiringsWithAdapterIds
  abortOnError := query.abortOnError
  deprecateOlderRevisions := query.deprecateOlderRevisions

/-- The options with which each revision is updated. -/
def MultipleTrafosUpdateConfig.putOptions (config : MultipleTrafosUpdateConfig) : PutOptions where
  allowOverwriteReleased := config.allowOverwriteReleased
  updateComponentCode := config.updateComponentCode
  expandComponentCode := config.expandComponentCode
  strip := {
    stripWiring := config.stripWirings
    stripReleaseWiring := config.stripReleaseWirings
    stripWiringsWithAdapterIds := config.stripWiringsWithAdapterIds
    keepOnlyWiringsWithAdapterIds := config.keepOnlyWiringsWithAdapterIds
    stripReleaseWiringsWithAdapterIds := config.stripReleaseWiringsWithAdapterIds
    keepOnlyReleaseWiringsWithAdapterIds := config.keepOnlyReleaseWiringsWithAdapterIds }

/-- The status of a revision in the report. -/
inductive UpdateProcessStatus
  | notTried | failed | success | ignored
  deriving DecidableEq, Repr

/-- The report: a dictionary from ids to what happened to the revision. -/
abbrev UpdateReport := UUID → Option UpdateProcessStatus

/-- Errors of the store which only make the update of one revision fail. Rows which cannot be
validated are integrity errors, and errors in reading imports are errors of these. A release or
deprecation which violates the model fails the request. -/
def StoreError.failsUpdate : StoreError → Bool
  | .code error => error ∈ [.codeParsing, .literalEval, .literalValidation, .parseDefaultValue]
  | .assertion => false
  | .validation _ => false
  | _ => true

/-- Errors which fail the whole request. -/
inductive ImportError
  | validation (error : ValidationError)
  | filter (error : FilterError)
  | store (error : StoreError)
  deriving DecidableEq

section Functions

variable {V D : Type}

/-- The method `strip_wirings` for a revision whose release wiring is its test wiring: what is
removed from the one is removed from the other, unless one of the two has been replaced before. -/
def TransformationRevision.stripSharedWiring (options : StripOptions)
    (revision : TransformationRevision V (WorkflowWiring D)) :
    TransformationRevision V (WorkflowWiring D) :=
  if options.stripWiring || options.stripReleaseWiring then revision.stripWirings options
  else
    let wiring := (revision.testWiring.stripAdapters options.stripWiringsWithAdapterIds
      options.keepOnlyWiringsWithAdapterIds).stripAdapters
        options.stripReleaseWiringsWithAdapterIds options.keepOnlyReleaseWiringsWithAdapterIds
    { revision with testWiring := wiring, releaseWiring := some wiring }

/-- A revision of a request, and whether its release wiring is the object which is its test
wiring. -/
structure SentTrafo (V D : Type) where
  revision : Revision V D
  wiringShared : Bool

/-- The revision with an id; of several the last one counts. -/
def sentTrafo (trafos : List (SentTrafo V D)) (id : UUID) : Option (SentTrafo V D) :=
  lastEntry (fun trafo => trafo.revision.id) trafos id

/-- Whether the revision with an id shares its wiring. -/
def sharesWiring (trafos : List (SentTrafo V D)) (id : UUID) : Bool :=
  (sentTrafo trafos id).any fun trafo => trafo.wiringShared

variable [UnicodeData] [DecidableEq V] [DecidableEq D]

/-- What a request takes from its surroundings: ids for the validation of released drafts by their
positions and for loads, and the surroundings of each update. -/
structure RequestSurroundings where
  released : ℕ → ℕ → UUID
  now : Timestamp
  loaded : UUID → UUID → ℕ → UUID
  updates : UUID → Surroundings
  deprecations : UUID → UUID → Surroundings

/-- Release a draft if drafts are to be released. -/
def releaseDraft (surroundings : RequestSurroundings) (releaseDrafts : Bool)
    (trafo : Revision V D × ℕ) : Except ValidationError (SentTrafo V D) :=
  if releaseDrafts && trafo.1.state = .draft then do
    let released ← trafo.1.release (surroundings.released trafo.2) surroundings.now
    return ⟨released, true⟩
  else return ⟨trafo.1, false⟩

/-- The update of one revision. -/
def updateSent (tools : CodeTools V D) (surroundings : Surroundings) (db : Database V D)
    (options : PutOptions) (wiringShared : Bool) (payload : Revision V D) :
    Except StoreError (Database V D × Revision V D) :=
  if wiringShared then
    updateOrCreateSingleTransformationRevision tools surroundings db
      { options with strip := .none } (payload.stripSharedWiring options.strip)
  else updateOrCreateSingleTransformationRevision tools surroundings db options payload

/-- The loop over the revisions to process: the database, the report and whether the loop has been
aborted. -/
def importTrafos (tools : CodeTools V D) (surroundings : UUID → Surroundings)
    (config : MultipleTrafosUpdateConfig) (shared : UUID → Bool) :
    List (Revision V D) → Database V D → UpdateReport →
      Except StoreError (Database V D × UpdateReport × Bool)
  | [], db, report => .ok (db, report, false)
  | trafo :: rest, db, report =>
    match updateSent tools (surroundings trafo.id) db config.putOptions (shared trafo.id) trafo with
    | .ok (db, _) =>
      importTrafos tools surroundings config shared rest db
        (Function.update report trafo.id (some .success))
    | .error error =>
      if error.failsUpdate then
        if config.abortOnError then
          .ok (db, Function.update report trafo.id (some .failed), true)
        else
          importTrafos tools surroundings config shared rest db
            (Function.update report trafo.id (some .failed))
      else .error error

/-- The report before the loop. -/
def initialReport (trafos processed : List (Revision V D)) : UpdateReport := fun id =>
  if id ∈ trafos.map fun trafo => trafo.id then
    if id ∈ processed.map fun trafo => trafo.id then some .notTried else some .ignored
  else none

/-- `import_importable` -/
def importImportable (tools : CodeTools V D) (surroundings : RequestSurroundings)
    (db : Database V D) (trafos : List (SentTrafo V D)) (params : FilterParams)
    (config : MultipleTrafosUpdateConfig) : Except ImportError (Database V D × UpdateReport) := do
  let revisions := trafos.map fun trafo => trafo.revision
  let trafosToProcess ← (filterAndOrderTrafos revisions params false).mapError .filter
  let (db, report, aborted) ← (importTrafos tools surroundings.updates config
    (sharesWiring trafos) trafosToProcess db (initialReport revisions trafosToProcess)).mapError
      .store
  if config.deprecateOlderRevisions && !aborted then do
    let revisionGroupIds := (trafosToProcess.map fun trafo => trafo.revisionGroupId).dedup
    let db ← (revisionGroupIds.foldlM (fun db revisionGroupId =>
      deprecateAllButLatestInGroup tools (surroundings.loaded revisionGroupId)
        (surroundings.deprecations revisionGroupId) db revisionGroupId) db).mapError .store
    return (db, report)
  else return (db, report)

/-- The revisions of a request, with those which are sent as code after the others. Code which
cannot be read is reported under its text and has no revision. -/
def requestedTrafos (ofPythonCode : PyStr → Option (Revision V D))
    (items : List (Revision V D ⊕ PyStr)) : List (Revision V D) :=
  items.filterMap Sum.getLeft? ++ (items.filterMap Sum.getRight?).filterMap ofPythonCode

/-- The revisions of a request, of which drafts are released if the query says so. -/
def sentTrafos (ofPythonCode : PyStr → Option (Revision V D)) (surroundings : RequestSurroundings)
    (items : List (Revision V D ⊕ PyStr)) (query : UpdateQuery) :
    Except ValidationError (List (SentTrafo V D)) :=
  (requestedTrafos ofPythonCode items).zipIdx.mapM (releaseDraft surroundings query.releaseDrafts)

/-- `update_transformation_revisions`, with the part of the report which is about revisions. -/
def updateTransformationRevisions (tools : CodeTools V D)
    (ofPythonCode : PyStr → Option (Revision V D)) (surroundings : RequestSurroundings)
    (db : Database V D) (items : List (Revision V D ⊕ PyStr)) (query : UpdateQuery) :
    Except ImportError (Database V D × UpdateReport) := do
  let trafos ← (sentTrafos ofPythonCode surroundings items query).mapError .validation
  importImportable tools surroundings db trafos query.filterParams query.multiImportConfig

end Functions

end HetidaDesigner
