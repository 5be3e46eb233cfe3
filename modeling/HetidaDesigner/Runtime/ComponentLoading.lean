import HetidaDesigner.Backend.ComponentImports

/-!
# Loading component code

`component/load.py` executes the code of a component when it is imported for the first time. The
code may import further components, so the function is entered again while it runs. A flag for
each module that is being imported lets it find cycles. The flag is taken back at the end of an
import, but not by the exceptions that leave it before.
-/

namespace HetidaDesigner

open Function

/-! ## Code of modules -/

/-- Exceptions which end an import or the code of a module. -/
inductive ImportException
  /-- `import_comp` finds no component or no code -/
  | missing (error : ComponentCodeImportError)
  /-- `ComponentImportCycleError` -/
  | cycle (uuid : UUID)
  /-- `ComponentCodeImportError` for code with a syntax error or an exception -/
  | notExecuted
  /-- the `ImportError` of a module which is not loaded yet -/
  | notFound
  /-- any other exception of the code -/
  | otherException
  /-- what is not an `Exception`, such as `SystemExit` -/
  | baseException
  deriving DecidableEq

/-- Code on module level, as far as imports of components go: it ends, raises an exception, or
imports a component and goes on depending on the outcome. -/
inductive ModuleCode
  | finished
  | raises (exception : ImportException)
  | importComp (trafoId : PyStr) (onReturn : ModuleCode) (onRaise : ImportException → ModuleCode)

/-- Python functions by which code is loaded. -/
structure CodeLoader where
  /-- `compile`; nothing for code with a syntax error -/
  compile : PyStr → Option ModuleCode
  /-- `hash_code` -/
  hashCode : PyStr → PyStr

/-! ## State -/

/-- Known hashes and loaded modules. -/
structure LoadedModules where
  codeHashDict : PyStr → Option PyStr
  /-- `sys.modules` -/
  modules : List PyStr

/-- A call of `import_from_code_module`, noted together with the modules being imported. -/
structure ImportRequest where
  importing : List UUID
  requested : UUID
  cycleDetected : Bool
  deriving DecidableEq

/-- What imports read and change. The requests are only noted. -/
structure ImportState extends LoadedModules where
  currentlyImporting : UUID → Bool
  requests : List ImportRequest

/-- Set the flag of a module. -/
def ImportState.mark (state : ImportState) (uuid : UUID) (importing : Bool) : ImportState :=
  { state with currentlyImporting := update state.currentlyImporting uuid importing }

/-- Note a request. -/
def ImportState.note (state : ImportState) (request : ImportRequest) : ImportState :=
  { state with requests := state.requests ++ [request] }

/-- `sys.modules[module_path] = mod` -/
def LoadedModules.register (loaded : LoadedModules) (modulePath : PyStr) : LoadedModules :=
  { loaded with modules := modulePath :: loaded.modules }

/-! ## Importing -/

section Import

variable {V : Type} (loader : CodeLoader)

/-- `module_path_from_code_hash` -/
def modulePathFromCodeHash (codeHash : PyStr) : PyStr :=
  "hetdesrun_loaded_components".toList ++ ".by_code_".toList ++ "_hash_".toList ++ codeHash

/-- `get_module_path`; a hash which is computed gets known. -/
def getModulePath (codeModule : CodeModule) (loaded : LoadedModules) : PyStr × LoadedModules :=
  match loaded.codeHashDict (uuidStr codeModule.uuid) with
  | some codeHash => (modulePathFromCodeHash codeHash, loaded)
  | none =>
    let codeHash := loader.hashCode codeModule.code
    (modulePathFromCodeHash codeHash,
      { loaded with
        codeHashDict := update loaded.codeHashDict (uuidStr codeModule.uuid) (some codeHash) })

/-- The outcome of an import: its module, or an exception, with the state it leaves. -/
abbrev ImportOutcome := Except ImportException PyStr × ImportState

/-- Execute the code of a module; nothing if an import it makes has no outcome. -/
def execCode (importComp : PyStr → ImportState → Option ImportOutcome) :
    ModuleCode → ImportState → Option (Except ImportException Unit × ImportState)
  | .finished, state => some (.ok (), state)
  | .raises exception, state => some (.error exception, state)
  | .importComp trafoId onReturn onRaise, state => do
    let (result, state) ← importComp trafoId state
    match result with
    | .ok _ => execCode importComp onReturn state
    | .error exception => execCode importComp (onRaise exception) state

/-- `import_comp` with the function by which it imports what it has found. -/
def importCompBy (context : ImportContext V)
    (importModule : CodeModule → ImportState → Option ImportOutcome) (trafoId : PyStr)
    (state : ImportState) : Option ImportOutcome :=
  match importComp context trafoId with
  | .error error => some (.error (.missing error), state)
  | .ok (codeModule, _) => importModule codeModule state

/-- The state once the module path is known; the request is noted. -/
def ImportState.request (importing : List UUID) (codeModule : CodeModule) (state : ImportState) :
    ImportState :=
  { state with toLoadedModules := (getModulePath loader codeModule state.toLoadedModules).2 }.note
    ⟨importing, codeModule.uuid, state.currentlyImporting codeModule.uuid⟩

/-- How an import ends after the code of the module has been executed. -/
def afterExec (uuid : UUID) (modulePath : PyStr) (registerModule : Bool) :
    Except ImportException Unit × ImportState → ImportOutcome
  | (.error .baseException, state) => (.error .baseException, state)
  | (.error _, state) => (.error .notExecuted, state)
  | (.ok (), state) =>
    let loaded := if registerModule then state.toLoadedModules.register modulePath
      else state.toLoadedModules
    (.ok modulePath, { state with toLoadedModules := loaded }.mark uuid false)

/-- `import_from_code_module`, with a bound on how deep imports are nested. The modules being
imported are only noted. -/
def importFromCodeModule (context : ImportContext V) :
    ℕ → List UUID → Bool → Bool → CodeModule → ImportState → Option ImportOutcome
  | 0, _, _, _, _, _ => none
  | depth + 1, importing, raiseIfNotFound, registerModule, codeModule, state =>
    let modulePath := (getModulePath loader codeModule state.toLoadedModules).1
    let state := state.request loader importing codeModule
    if state.currentlyImporting codeModule.uuid then
      some (.error (.cycle codeModule.uuid), state)
    else
      let state := state.mark codeModule.uuid true
      if modulePath ∈ state.modules then
        some (.ok modulePath, state.mark codeModule.uuid false)
      else if raiseIfNotFound then some (.error .notFound, state)
      else
        match loader.compile codeModule.code with
        | none => some (.error .notExecuted, state)
        | some code =>
          (execCode
            (importCompBy context
              (importFromCodeModule context depth (codeModule.uuid :: importing) false true))
            code state).map (afterExec codeModule.uuid modulePath registerModule)

/-- A call of `import_from_code_module` that is not made by component code. -/
structure ImportCall where
  codeModule : CodeModule
  raiseIfNotFound : Bool
  registerModule : Bool

/-- Calls one after the other, with the outcome of each. -/
def importCalls (context : ImportContext V) (depth : ℕ) :
    List ImportCall → ImportState → Option (List ImportOutcome)
  | [], _ => some []
  | call :: rest, state => do
    let outcome ← importFromCodeModule loader context depth [] call.raiseIfNotFound
      call.registerModule call.codeModule state
    let others ← importCalls context depth rest outcome.2
    return outcome :: others

/-- The part of `prepare_runtime_context_bindings` that imports use: the hashes of all code
modules, and no flag set. -/
def prepareImportState (runtimeInput : ExecutionComponents V) (modules : List PyStr) :
    ImportState where
  codeHashDict := fun key => (LastEntry.lastEntry (fun codeModule => uuidStr codeModule.uuid)
    runtimeInput.codeModules key).map fun codeModule => loader.hashCode codeModule.code
  modules := modules
  currentlyImporting := fun _ => false
  requests := []

end Import

/-! ## Marks -/

section Marks

variable {V : Type} {loader : CodeLoader} {context : ImportContext V}

/-- All flags which are set stay set. -/
def KeepsFlags (state state' : ImportState) : Prop :=
  ∀ uuid, state.currentlyImporting uuid = true → state'.currentlyImporting uuid = true

/-- Keeping flags twice. -/
theorem KeepsFlags.trans {a b c : ImportState} (h : KeepsFlags a b) (h' : KeepsFlags b c) :
    KeepsFlags a c :=
  fun uuid huuid => h' uuid (h uuid huuid)

/-- The flags of two states between which they do not change. -/
theorem KeepsFlags.eq_of_eq {a b c : ImportState} (h : KeepsFlags a b) (h' : KeepsFlags b c)
    (hsame : c.currentlyImporting = a.currentlyImporting) :
    b.currentlyImporting = a.currentlyImporting ∧ c.currentlyImporting = b.currentlyImporting := by
  have hab : b.currentlyImporting = a.currentlyImporting := by
    funext uuid
    rw [Bool.eq_iff_iff]
    exact ⟨fun hb => hsame ▸ h' uuid hb, h uuid⟩
  exact ⟨hab, hsame.trans hab.symm⟩

/-- A request changes no flag. -/
@[simp] theorem currentlyImporting_request (importing : List UUID) (codeModule : CodeModule)
    (state : ImportState) :
    (state.request loader importing codeModule).currentlyImporting = state.currentlyImporting :=
  rfl

/-- A flag that is set. -/
@[simp] theorem currentlyImporting_mark (state : ImportState) (uuid : UUID) (importing : Bool) :
    (state.mark uuid importing).currentlyImporting =
      update state.currentlyImporting uuid importing :=
  rfl

/-- What an import does: it finds a cycle, or sets the flag and takes it back with the module that
is loaded already, fails with the flag set, or executes the code. -/
theorem importFromCodeModule_cases {depth : ℕ} {importing : List UUID}
    {raiseIfNotFound registerModule : Bool} {codeModule : CodeModule} {state : ImportState}
    {outcome : ImportOutcome}
    (h : importFromCodeModule loader context (depth + 1) importing raiseIfNotFound registerModule
      codeModule state = some outcome) :
    let modulePath := (getModulePath loader codeModule state.toLoadedModules).1
    let requested := state.request loader importing codeModule
    let marked := requested.mark codeModule.uuid true
    (state.currentlyImporting codeModule.uuid = true ∧
      outcome = (.error (.cycle codeModule.uuid), requested)) ∨
    (state.currentlyImporting codeModule.uuid = false ∧
      ((modulePath ∈ requested.modules ∧
          outcome = (.ok modulePath, marked.mark codeModule.uuid false)) ∨
        (modulePath ∉ requested.modules ∧
          (raiseIfNotFound = true ∨ loader.compile codeModule.code = none) ∧
          ∃ exception, outcome = (.error exception, marked)) ∨
        (modulePath ∉ requested.modules ∧ raiseIfNotFound = false ∧
          ∃ code result, loader.compile codeModule.code = some code ∧
            execCode (importCompBy context (importFromCodeModule loader context depth
              (codeModule.uuid :: importing) false true)) code marked = some result ∧
            outcome = afterExec codeModule.uuid modulePath registerModule result))) := by
  intro modulePath requested marked
  rw [importFromCodeModule] at h
  dsimp only at h
  split at h
  · rename_i hflag
    exact Or.inl ⟨hflag, (Option.some.inj h).symm⟩
  · rename_i hflag
    refine Or.inr ⟨Bool.eq_false_iff.mpr hflag, ?_⟩
    split at h
    · rename_i hloaded
      exact Or.inl ⟨hloaded, (Option.some.inj h).symm⟩
    · rename_i hloaded
      split at h
      · rename_i hraise
        exact Or.inr (Or.inl ⟨hloaded, Or.inl hraise, _, (Option.some.inj h).symm⟩)
      · rename_i hraise
        split at h
        · rename_i hcode
          exact Or.inr (Or.inl ⟨hloaded, Or.inr hcode, _, (Option.some.inj h).symm⟩)
        · rename_i code hcode
          obtain ⟨result, hresult, houtcome⟩ := Option.map_eq_some_iff.mp h
          exact Or.inr (Or.inr ⟨hloaded, Bool.eq_false_iff.mpr hraise, code, result, hcode,
            hresult, houtcome.symm⟩)

/-- What code does: it ends, or it imports a component and goes on. -/
theorem execCode_importComp {importBy : PyStr → ImportState → Option ImportOutcome}
    {trafoId : PyStr} {onReturn : ModuleCode} {onRaise : ImportException → ModuleCode}
    {state : ImportState} {result : Except ImportException Unit × ImportState}
    (h : execCode importBy (.importComp trafoId onReturn onRaise) state = some result) :
    ∃ outcome, importBy trafoId state = some outcome ∧
      ((∃ modulePath, outcome.1 = .ok modulePath ∧
          execCode importBy onReturn outcome.2 = some result) ∨
        ∃ exception, outcome.1 = .error exception ∧
          execCode importBy (onRaise exception) outcome.2 = some result) := by
  rw [execCode] at h
  obtain ⟨⟨imported, state'⟩, houtcome, h⟩ := Option.bind_eq_some_iff.mp h
  refine ⟨_, houtcome, ?_⟩
  cases imported with
  | ok modulePath => exact Or.inl ⟨modulePath, rfl, h⟩
  | error exception => exact Or.inr ⟨exception, rfl, h⟩

/-- Code keeps flags if the imports that it makes do. -/
theorem keepsFlags_of_execCode {importBy : PyStr → ImportState → Option ImportOutcome}
    (himport : ∀ trafoId state outcome, importBy trafoId state = some outcome →
      KeepsFlags state outcome.2) {code : ModuleCode} {state : ImportState}
    {result : Except ImportException Unit × ImportState}
    (h : execCode importBy code state = some result) : KeepsFlags state result.2 := by
  induction code generalizing state with
  | finished | raises exception =>
    obtain rfl := Option.some.inj h
    exact fun uuid huuid => huuid
  | importComp trafoId onReturn onRaise ihReturn ihRaise =>
    obtain ⟨outcome, houtcome, ⟨_, -, hrest⟩ | ⟨exception, -, hrest⟩⟩ := execCode_importComp h
    · exact (himport _ _ _ houtcome).trans (ihReturn hrest)
    · exact (himport _ _ _ houtcome).trans (ihRaise exception hrest)

/-- An import ends with what the code has left, the flag taken back if the code ended. -/
theorem afterExec_cases (uuid : UUID) (modulePath : PyStr) (registerModule : Bool)
    (result : Except ImportException Unit × ImportState) :
    (result.1 = .ok () ∧ (afterExec uuid modulePath registerModule result).1 = .ok modulePath ∧
      (afterExec uuid modulePath registerModule result).2.currentlyImporting =
        update result.2.currentlyImporting uuid false) ∨
    ((∃ exception, result.1 = .error exception) ∧
      (∃ exception, (afterExec uuid modulePath registerModule result).1 = .error exception) ∧
      (afterExec uuid modulePath registerModule result).2 = result.2) := by
  obtain ⟨result, state⟩ := result
  cases result with
  | ok value => exact Or.inl ⟨rfl, rfl, rfl⟩
  | error exception => cases exception <;> exact Or.inr ⟨⟨_, rfl⟩, ⟨_, rfl⟩, rfl⟩

/-- Imports made by code keep flags. -/
theorem keepsFlags_of_importCompBy {importModule : CodeModule → ImportState → Option ImportOutcome}
    (himport : ∀ codeModule state outcome, importModule codeModule state = some outcome →
      KeepsFlags state outcome.2) {trafoId : PyStr} {state : ImportState} {outcome : ImportOutcome}
    (h : importCompBy context importModule trafoId state = some outcome) :
    KeepsFlags state outcome.2 := by
  unfold importCompBy at h
  split at h
  · obtain rfl := Option.some.inj h
    exact fun uuid huuid => huuid
  · exact himport _ _ _ h

/-- An import keeps the flags of all other imports. -/
theorem keepsFlags_of_import {depth : ℕ} {importing : List UUID}
    {raiseIfNotFound registerModule : Bool} {codeModule : CodeModule} {state : ImportState}
    {outcome : ImportOutcome}
    (h : importFromCodeModule loader context depth importing raiseIfNotFound registerModule
      codeModule state = some outcome) : KeepsFlags state outcome.2 := by
  induction depth generalizing importing raiseIfNotFound registerModule codeModule state outcome with
  | zero => cases h
  | succ depth ih =>
    rcases importFromCodeModule_cases h with ⟨-, rfl⟩ | ⟨hflag, hcases⟩
    · exact fun uuid huuid => huuid
    · intro uuid huuid
      have hne : uuid ≠ codeModule.uuid := by
        rintro rfl
        exact absurd huuid (Bool.eq_false_iff.mp hflag)
      have hmarked : ((state.request loader importing codeModule).mark codeModule.uuid
          true).currentlyImporting uuid = true := by
        rw [currentlyImporting_mark, update_of_ne hne, currentlyImporting_request, huuid]
      rcases hcases with ⟨-, rfl⟩ | ⟨-, -, exception, rfl⟩ | ⟨-, -, code, result, -, hexec, rfl⟩
      · rw [currentlyImporting_mark, update_of_ne hne, hmarked]
      · exact hmarked
      · have hkept := keepsFlags_of_execCode (fun _ _ _ himport =>
          keepsFlags_of_importCompBy (fun _ _ _ h => ih h) himport) hexec uuid hmarked
        rcases afterExec_cases codeModule.uuid _ registerModule result with
          ⟨-, -, hflags⟩ | ⟨-, -, hstate⟩
        · rw [hflags, update_of_ne hne, hkept]
        · rw [hstate, hkept]

/-! ## Depth -/

/-- The number of code modules which are not being imported. -/
def unmarked (codeModules : List CodeModule) (state : ImportState) : ℕ :=
  codeModules.countP fun codeModule => !state.currentlyImporting codeModule.uuid

/-- Flags which are kept leave no more modules to import. -/
theorem KeepsFlags.unmarked_le {codeModules : List CodeModule} {state state' : ImportState}
    (h : KeepsFlags state state') : unmarked codeModules state' ≤ unmarked codeModules state := by
  refine List.countP_mono_left fun codeModule _ hmarked => ?_
  rw [Bool.not_eq_true'] at hmarked ⊢
  exact Bool.eq_false_iff.mpr fun hflag => Bool.eq_false_iff.mp hmarked (h _ hflag)

/-- A module that is marked leaves one module less. -/
theorem unmarked_mark_lt {codeModules : List CodeModule} {codeModule : CodeModule}
    {state : ImportState} (hmem : codeModule ∈ codeModules)
    (hflag : state.currentlyImporting codeModule.uuid = false) :
    unmarked codeModules (state.mark codeModule.uuid true) < unmarked codeModules state := by
  have hmono (others : List CodeModule) :
      unmarked others (state.mark codeModule.uuid true) ≤ unmarked others state := by
    refine KeepsFlags.unmarked_le fun uuid huuid => ?_
    rw [currentlyImporting_mark]
    by_cases heq : uuid = codeModule.uuid
    · rw [heq, update_self]
    · rw [update_of_ne heq, huuid]
  obtain ⟨before, after, rfl⟩ := List.append_of_mem hmem
  have hbefore := hmono before
  have hafter := hmono after
  unfold unmarked at hbefore hafter ⊢
  rw [List.countP_append, List.countP_append, List.countP_cons, List.countP_cons,
    if_neg (by rw [currentlyImporting_mark, update_self]; decide), if_pos (by rw [hflag]; rfl)]
  omega

/-- Code has an outcome if the imports that it makes have one. -/
theorem exists_execCode {importBy : PyStr → ImportState → Option ImportOutcome}
    {P : ImportState → Prop}
    (himport : ∀ trafoId state, P state → ∃ outcome, importBy trafoId state = some outcome ∧
      P outcome.2) (code : ModuleCode) {state : ImportState} (hstate : P state) :
    ∃ result, execCode importBy code state = some result := by
  induction code generalizing state with
  | finished | raises exception => exact ⟨_, rfl⟩
  | importComp trafoId onReturn onRaise ihReturn ihRaise =>
    obtain ⟨⟨imported, state'⟩, houtcome, hstate'⟩ := himport trafoId state hstate
    rw [execCode, houtcome]
    cases imported with
    | ok modulePath => exact ihReturn hstate'
    | error exception => exact ihRaise exception hstate'

/-- The context holds the given code modules. -/
def ImportContext.HasOnly (context : ImportContext V) (codeModules : List CodeModule) : Prop :=
  ∀ key, ∀ codeModule ∈ context.codeModulesById key, codeModule ∈ codeModules

/-- What `import_comp` finds is one of the code modules. -/
theorem ImportContext.HasOnly.of_importComp {codeModules : List CodeModule}
    (h : context.HasOnly codeModules) {trafoId : PyStr} {codeModule : CodeModule}
    {component : ComponentRevision V}
    (hfound : importComp context trafoId = .ok (codeModule, component)) :
    codeModule ∈ codeModules := by
  unfold importComp at hfound
  split at hfound
  · cases hfound
  · split at hfound
    · cases hfound
    · rename_i found hcode
      obtain rfl := (Prod.mk.inj (Except.ok.inj hfound)).1
      exact h _ _ hcode

/-- Imports have an outcome if they may be nested as deep as there are modules to import. -/
theorem exists_import {codeModules : List CodeModule} (hcontext : context.HasOnly codeModules)
    {depth : ℕ} {importing : List UUID} {raiseIfNotFound registerModule : Bool}
    {codeModule : CodeModule} {state : ImportState}
    (hdepth : state.currentlyImporting codeModule.uuid = true ∨
      unmarked codeModules (state.mark codeModule.uuid true) < depth) :
    ∃ outcome, importFromCodeModule loader context (depth + 1) importing raiseIfNotFound
      registerModule codeModule state = some outcome := by
  induction depth generalizing importing raiseIfNotFound registerModule codeModule state with
  | zero =>
    rcases hdepth with hflag | hdepth
    · exact ⟨_, by rw [importFromCodeModule]; exact if_pos hflag⟩
    · exact absurd hdepth (Nat.not_lt_zero _)
  | succ depth ih =>
    rw [importFromCodeModule]
    dsimp only
    split
    · exact ⟨_, rfl⟩
    · rename_i hflag
      split
      · exact ⟨_, rfl⟩
      · split
        · exact ⟨_, rfl⟩
        · split
          · exact ⟨_, rfl⟩
          · rename_i code _
            have hmarked := hdepth.resolve_left hflag
            -- below this module one level less is left, and one module less to import
            have hnested (trafoId : PyStr) (inner : ImportState)
                (hinner : unmarked codeModules inner < depth + 1) :
                ∃ outcome, importCompBy context (importFromCodeModule loader context (depth + 1)
                    (codeModule.uuid :: importing) false true) trafoId inner = some outcome ∧
                  unmarked codeModules outcome.2 < depth + 1 := by
              unfold importCompBy
              split
              · exact ⟨_, rfl, hinner⟩
              · rename_i codeModule' component hfound
                have hdepth' : inner.currentlyImporting codeModule'.uuid = true ∨
                    unmarked codeModules (inner.mark codeModule'.uuid true) < depth := by
                  cases hflag' : inner.currentlyImporting codeModule'.uuid with
                  | true => exact Or.inl rfl
                  | false =>
                    have hlt := unmarked_mark_lt (hcontext.of_importComp hfound) hflag'
                    exact Or.inr (by omega)
                obtain ⟨outcome, houtcome⟩ :=
                  @ih (codeModule.uuid :: importing) false true codeModule' inner hdepth'
                exact ⟨outcome, houtcome,
                  (keepsFlags_of_import houtcome).unmarked_le.trans_lt hinner⟩
            obtain ⟨result, hresult⟩ := @exists_execCode _
              (fun inner => unmarked codeModules inner < depth + 1) hnested code
              ((state.request loader importing codeModule).mark codeModule.uuid true) hmarked
            exact ⟨_, by rw [hresult]; rfl⟩

end Marks

end HetidaDesigner
