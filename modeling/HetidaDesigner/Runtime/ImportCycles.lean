import HetidaDesigner.Runtime.ComponentLoading

/-!
# Import cycles

Imports complete if the code of every module that is executed on the way runs to its end, whatever
it imports and catches. Then no flag is left and the cycles found are real. An import which ends in
another way keeps its flag for the rest of the execution, so both are true exactly if all imports
complete.
-/

namespace HetidaDesigner

open Function

/-! ## Imports that complete -/

section Completes

variable {V : Type} (loader : CodeLoader) (context : ImportContext V)

/-- What is known and loaded once a module path is known. -/
abbrev LoadedModules.known (loaded : LoadedModules) (codeModule : CodeModule) : LoadedModules :=
  (getModulePath loader codeModule loaded).2

/-- The path of a module. -/
abbrev LoadedModules.path (loaded : LoadedModules) (codeModule : CodeModule) : PyStr :=
  (getModulePath loader codeModule loaded).1

/-- Code runs to its end while some modules are being imported, and so does the code of all modules
that are executed on the way. The code catches the exceptions of imports which find nothing or close
a cycle. -/
inductive CodeCompletes : List UUID → LoadedModules → ModuleCode → LoadedModules → Prop
  | finished {importing : List UUID} {loaded : LoadedModules} :
      CodeCompletes importing loaded .finished loaded
  | missing {importing : List UUID} {loaded loaded' : LoadedModules} {trafoId : PyStr}
      {onReturn : ModuleCode} {onRaise : ImportException → ModuleCode}
      {error : ComponentCodeImportError} :
      importComp context trafoId = .error error →
      CodeCompletes importing loaded (onRaise (.missing error)) loaded' →
      CodeCompletes importing loaded (.importComp trafoId onReturn onRaise) loaded'
  | cycle {importing : List UUID} {loaded loaded' : LoadedModules} {trafoId : PyStr}
      {onReturn : ModuleCode} {onRaise : ImportException → ModuleCode} {codeModule : CodeModule}
      {component : ComponentRevision V} :
      importComp context trafoId = .ok (codeModule, component) → codeModule.uuid ∈ importing →
      CodeCompletes importing (loaded.known loader codeModule) (onRaise (.cycle codeModule.uuid))
        loaded' →
      CodeCompletes importing loaded (.importComp trafoId onReturn onRaise) loaded'
  | loaded {importing : List UUID} {loaded loaded' : LoadedModules} {trafoId : PyStr}
      {onReturn : ModuleCode} {onRaise : ImportException → ModuleCode} {codeModule : CodeModule}
      {component : ComponentRevision V} :
      importComp context trafoId = .ok (codeModule, component) → codeModule.uuid ∉ importing →
      loaded.path loader codeModule ∈ loaded.modules →
      CodeCompletes importing (loaded.known loader codeModule) onReturn loaded' →
      CodeCompletes importing loaded (.importComp trafoId onReturn onRaise) loaded'
  | executed {importing : List UUID} {loaded loaded₁ loaded' : LoadedModules} {trafoId : PyStr}
      {onReturn : ModuleCode} {onRaise : ImportException → ModuleCode} {codeModule : CodeModule}
      {component : ComponentRevision V} {code : ModuleCode} :
      importComp context trafoId = .ok (codeModule, component) → codeModule.uuid ∉ importing →
      loaded.path loader codeModule ∉ loaded.modules → loader.compile codeModule.code = some code →
      CodeCompletes (codeModule.uuid :: importing) (loaded.known loader codeModule) code loaded₁ →
      CodeCompletes importing (loaded₁.register (loaded.path loader codeModule)) onReturn loaded' →
      CodeCompletes importing loaded (.importComp trafoId onReturn onRaise) loaded'

/-- An import that closes no cycle completes: the module is loaded already, or its code may be
executed and runs to its end. -/
inductive ImportCompletes (importing : List UUID) (loaded : LoadedModules)
    (raiseIfNotFound registerModule : Bool) (codeModule : CodeModule) : LoadedModules → Prop
  | loaded : codeModule.uuid ∉ importing → loaded.path loader codeModule ∈ loaded.modules →
      ImportCompletes importing loaded raiseIfNotFound registerModule codeModule
        (loaded.known loader codeModule)
  | executed {code : ModuleCode} {loaded' : LoadedModules} : codeModule.uuid ∉ importing →
      loaded.path loader codeModule ∉ loaded.modules → raiseIfNotFound = false →
      loader.compile codeModule.code = some code →
      CodeCompletes loader context (codeModule.uuid :: importing) (loaded.known loader codeModule)
        code loaded' →
      ImportCompletes importing loaded raiseIfNotFound registerModule codeModule
        (if registerModule then loaded'.register (loaded.path loader codeModule) else loaded')

/-- All calls complete, one after the other. -/
def CallsComplete : List ImportCall → LoadedModules → Prop
  | [], _ => True
  | call :: rest, loaded => ∃ loaded',
      ImportCompletes loader context [] loaded call.raiseIfNotFound call.registerModule
        call.codeModule loaded' ∧ CallsComplete rest loaded'

variable {loader context}

/-- Code that imports a component goes on after an import that completes. -/
theorem CodeCompletes.of_import {importing : List UUID} {loaded loaded₁ loaded' : LoadedModules}
    {trafoId : PyStr} {onReturn : ModuleCode} {onRaise : ImportException → ModuleCode}
    {codeModule : CodeModule} {component : ComponentRevision V}
    (hfound : importComp context trafoId = .ok (codeModule, component))
    (himport : ImportCompletes loader context importing loaded false true codeModule loaded₁)
    (hrest : CodeCompletes loader context importing loaded₁ onReturn loaded') :
    CodeCompletes loader context importing loaded (.importComp trafoId onReturn onRaise) loaded' := by
  cases himport with
  | loaded hnot hloaded => exact .loaded hfound hnot hloaded hrest
  | executed hnot hloaded _ hcode hcompletes =>
    exact .executed hfound hnot hloaded hcode hcompletes hrest

/-- The flags of a state are set for the modules being imported. -/
def ImportState.Imports (state : ImportState) (importing : List UUID) : Prop :=
  ∀ uuid, state.currentlyImporting uuid = true ↔ uuid ∈ importing

/-- Cycles are found if and only if the requested module is being imported. -/
def CyclesReal (requests : List ImportRequest) : Prop :=
  ∀ request ∈ requests, (request.cycleDetected = true ↔ request.requested ∈ request.importing)

/-- What has become of a state: the flags are as before, cycles are real, and this is loaded. -/
structure Restored (state state' : ImportState) (loaded' : LoadedModules) : Prop where
  flags : state'.currentlyImporting = state.currentlyImporting
  loaded : state'.toLoadedModules = loaded'
  cycles : CyclesReal state.requests → CyclesReal state'.requests

/-- Restoring twice. -/
theorem Restored.trans {a b c : ImportState} {loaded loaded' : LoadedModules}
    (h : Restored a b loaded) (h' : Restored b c loaded') : Restored a c loaded' :=
  ⟨h'.flags.trans h.flags, h'.loaded, fun hcycles => h'.cycles (h.cycles hcycles)⟩

/-- The flags are set for the same modules afterwards. -/
theorem Restored.imports {state state' : ImportState} {loaded' : LoadedModules}
    (h : Restored state state' loaded') {importing : List UUID}
    (himports : state.Imports importing) : state'.Imports importing := by
  intro uuid
  rw [h.flags, himports]

/-- A request finds the loaded modules as they are. -/
theorem modules_known (loaded : LoadedModules) (codeModule : CodeModule) :
    (loaded.known loader codeModule).modules = loaded.modules := by
  unfold LoadedModules.known getModulePath
  split <;> rfl

/-- A request does not find cycles which are not there. -/
theorem restored_request {importing : List UUID} {codeModule : CodeModule} {state : ImportState}
    (himports : state.Imports importing) :
    Restored state (state.request loader importing codeModule)
      (state.toLoadedModules.known loader codeModule) where
  flags := rfl
  loaded := rfl
  cycles := by
    intro hcycles request hrequest
    rcases List.mem_append.mp hrequest with hrequest | hrequest
    · exact hcycles request hrequest
    · rw [List.mem_singleton.mp hrequest]
      exact himports codeModule.uuid

/-- While a module is imported its flag is set as well. -/
theorem ImportState.Imports.mark {importing : List UUID} {state : ImportState}
    (himports : state.Imports importing) (uuid : UUID) :
    (state.mark uuid true).Imports (uuid :: importing) := by
  intro other
  rw [currentlyImporting_mark, List.mem_cons]
  by_cases heq : other = uuid
  · simp [heq]
  · rw [update_of_ne heq, himports]
    simp [heq]

/-- A flag that was not set is taken back. -/
theorem update_update_of_eq_false {flags : UUID → Bool} {uuid : UUID} (h : flags uuid = false) :
    update (update flags uuid true) uuid false = flags := by
  rw [update_idem, ← h, update_eq_self]

/-- The import of a module that is being imported finds the cycle. -/
theorem importFromCodeModule_of_mem {depth : ℕ} {importing : List UUID}
    {raiseIfNotFound registerModule : Bool} {codeModule : CodeModule} {state : ImportState}
    {outcome : ImportOutcome} (himports : state.Imports importing)
    (hmem : codeModule.uuid ∈ importing)
    (h : importFromCodeModule loader context depth importing raiseIfNotFound registerModule
      codeModule state = some outcome) :
    outcome = (.error (.cycle codeModule.uuid), state.request loader importing codeModule) := by
  cases depth with
  | zero => cases h
  | succ depth =>
    rcases importFromCodeModule_cases h with ⟨-, houtcome⟩ | ⟨hflag, -⟩
    · exact houtcome
    · exact absurd ((himports _).mpr hmem) (Bool.eq_false_iff.mp hflag)

/-- The import of a loaded module restores the state. -/
theorem restored_of_loaded {depth : ℕ} {importing : List UUID}
    {raiseIfNotFound registerModule : Bool} {codeModule : CodeModule} {state : ImportState}
    {outcome : ImportOutcome} (himports : state.Imports importing)
    (hnot : codeModule.uuid ∉ importing)
    (hloaded : state.toLoadedModules.path loader codeModule ∈ state.modules)
    (h : importFromCodeModule loader context depth importing raiseIfNotFound registerModule
      codeModule state = some outcome) :
    (∃ modulePath, outcome.1 = .ok modulePath) ∧
      Restored state outcome.2 (state.toLoadedModules.known loader codeModule) := by
  have hflag : state.currentlyImporting codeModule.uuid = false :=
    Bool.eq_false_iff.mpr fun hflag => hnot ((himports _).mp hflag)
  rw [← @modules_known loader state.toLoadedModules codeModule] at hloaded
  cases depth with
  | zero => cases h
  | succ depth =>
    rcases importFromCodeModule_cases h with ⟨hflag', -⟩ | ⟨-, ⟨-, rfl⟩ | ⟨hmissing, -⟩ |
      ⟨hmissing, -⟩⟩
    · exact absurd hflag' (Bool.eq_false_iff.mp hflag)
    · exact ⟨⟨_, rfl⟩, update_update_of_eq_false hflag, rfl, (restored_request himports).cycles⟩
    · exact absurd hloaded hmissing
    · exact absurd hloaded hmissing

/-- An import whose code completes restores the state. -/
theorem restored_of_executed {depth : ℕ} {importing : List UUID}
    {raiseIfNotFound registerModule : Bool} {codeModule : CodeModule} {state : ImportState}
    {outcome : ImportOutcome} {code : ModuleCode} {loaded' : LoadedModules}
    (himports : state.Imports importing) (hnot : codeModule.uuid ∉ importing)
    (hmissing : state.toLoadedModules.path loader codeModule ∉ state.modules)
    (hraise : raiseIfNotFound = false) (hcode : loader.compile codeModule.code = some code)
    (hexec : ∀ {depth inner result}, inner.Imports (codeModule.uuid :: importing) →
      inner.toLoadedModules = state.toLoadedModules.known loader codeModule →
      execCode (importCompBy context (importFromCodeModule loader context depth
        (codeModule.uuid :: importing) false true)) code inner = some result →
      result.1 = .ok () ∧ Restored inner result.2 loaded')
    (h : importFromCodeModule loader context depth importing raiseIfNotFound registerModule
      codeModule state = some outcome) :
    (∃ modulePath, outcome.1 = .ok modulePath) ∧ Restored state outcome.2
      (if registerModule then loaded'.register (state.toLoadedModules.path loader codeModule)
        else loaded') := by
  have hflag : state.currentlyImporting codeModule.uuid = false :=
    Bool.eq_false_iff.mpr fun hflag => hnot ((himports _).mp hflag)
  have hrequest := @restored_request loader _ codeModule _ himports
  rw [← @modules_known loader state.toLoadedModules codeModule] at hmissing
  cases depth with
  | zero => cases h
  | succ depth =>
    rcases importFromCodeModule_cases h with ⟨hflag', -⟩ | ⟨-, ⟨hloaded, -⟩ | ⟨-, hfails, -⟩ |
      ⟨-, -, code', ⟨ended, inner⟩, hcode', hresult, rfl⟩⟩
    · exact absurd hflag' (Bool.eq_false_iff.mp hflag)
    · exact absurd hloaded hmissing
    · rcases hfails with hfails | hfails
      · exact absurd hfails (by rw [hraise]; exact Bool.false_ne_true)
      · cases hcode.symm.trans hfails
    · obtain rfl := Option.some.inj (hcode.symm.trans hcode')
      obtain ⟨hok, hflags, hloaded, hcycles⟩ :=
        hexec ((hrequest.imports himports).mark codeModule.uuid) rfl hresult
      obtain rfl : ended = .ok () := hok
      refine ⟨⟨_, rfl⟩, ?_, ?_, fun hreal => hcycles (hrequest.cycles hreal)⟩
      · change update inner.currentlyImporting codeModule.uuid false = _
        rw [show inner.currentlyImporting = update state.currentlyImporting codeModule.uuid true
          from hflags, update_update_of_eq_false hflag]
      · rw [← hloaded]
        rfl

/-- Code that completes restores the state. -/
theorem CodeCompletes.restored {importing : List UUID} {loaded loaded' : LoadedModules}
    {code : ModuleCode} (h : CodeCompletes loader context importing loaded code loaded')
    {depth : ℕ} {state : ImportState} {result : Except ImportException Unit × ImportState}
    (himports : state.Imports importing) (hloaded : state.toLoadedModules = loaded)
    (hresult : execCode (importCompBy context (importFromCodeModule loader context depth importing
      false true)) code state = some result) :
    result.1 = .ok () ∧ Restored state result.2 loaded' := by
  induction h generalizing depth state result with
  | finished =>
    obtain rfl := Option.some.inj hresult
    exact ⟨rfl, rfl, hloaded, id⟩
  | missing hfound _ ih =>
    obtain ⟨outcome, houtcome, hcases⟩ := execCode_importComp hresult
    rw [importCompBy, hfound] at houtcome
    obtain rfl := Option.some.inj houtcome
    obtain ⟨_, hok, -⟩ | ⟨exception, herror, hrest⟩ := hcases
    · cases hok
    · obtain rfl := Except.error.inj herror
      exact ih himports hloaded hrest
  | cycle hfound hmem _ ih =>
    obtain ⟨outcome, houtcome, hcases⟩ := execCode_importComp hresult
    rw [importCompBy, hfound] at houtcome
    subst hloaded
    obtain rfl := importFromCodeModule_of_mem himports hmem houtcome
    obtain ⟨_, hok, -⟩ | ⟨exception, herror, hrest⟩ := hcases
    · cases hok
    · obtain rfl := Except.error.inj herror
      obtain ⟨hend, hrestored⟩ := ih ((restored_request himports).imports himports) rfl hrest
      exact ⟨hend, (restored_request himports).trans hrestored⟩
  | loaded hfound hnot hpath _ ih =>
    obtain ⟨outcome, houtcome, hcases⟩ := execCode_importComp hresult
    rw [importCompBy, hfound] at houtcome
    subst hloaded
    obtain ⟨⟨modulePath, hok⟩, hfirst⟩ := restored_of_loaded himports hnot hpath houtcome
    obtain ⟨_, -, hrest⟩ | ⟨exception, herror, -⟩ := hcases
    · obtain ⟨hend, hrestored⟩ := ih (hfirst.imports himports) hfirst.loaded hrest
      exact ⟨hend, hfirst.trans hrestored⟩
    · cases hok.symm.trans herror
  | executed hfound hnot hpath hcode _ _ ihCode ih =>
    obtain ⟨outcome, houtcome, hcases⟩ := execCode_importComp hresult
    rw [importCompBy, hfound] at houtcome
    subst hloaded
    obtain ⟨⟨modulePath, hok⟩, hfirst⟩ :=
      restored_of_executed himports hnot hpath rfl hcode ihCode houtcome
    obtain ⟨_, -, hrest⟩ | ⟨exception, herror, -⟩ := hcases
    · obtain ⟨hend, hrestored⟩ := ih (hfirst.imports himports) hfirst.loaded hrest
      exact ⟨hend, hfirst.trans hrestored⟩
    · cases hok.symm.trans herror

/-- An import that completes restores the state. -/
theorem ImportCompletes.restored {depth : ℕ} {importing : List UUID}
    {raiseIfNotFound registerModule : Bool} {codeModule : CodeModule} {state : ImportState}
    {loaded' : LoadedModules} {outcome : ImportOutcome} (himports : state.Imports importing)
    (h : ImportCompletes loader context importing state.toLoadedModules raiseIfNotFound
      registerModule codeModule loaded')
    (houtcome : importFromCodeModule loader context depth importing raiseIfNotFound registerModule
      codeModule state = some outcome) :
    Restored state outcome.2 loaded' := by
  cases h with
  | loaded hnot hloaded => exact (restored_of_loaded himports hnot hloaded houtcome).2
  | executed hnot hmissing hraise hcode hcompletes =>
    exact (restored_of_executed himports hnot hmissing hraise hcode
      (fun hinner hloaded hresult => hcompletes.restored hinner hloaded hresult) houtcome).2

/-- An import that leaves no further flag has found a cycle, or it completes. -/
def LeavesFlagsOnlyIfComplete (loader : CodeLoader) (context : ImportContext V) (depth : ℕ) :
    Prop :=
  ∀ {importing : List UUID} {raiseIfNotFound registerModule : Bool} {codeModule : CodeModule}
    {state : ImportState} {outcome : ImportOutcome}, state.Imports importing →
    importFromCodeModule loader context depth importing raiseIfNotFound registerModule codeModule
      state = some outcome →
    outcome.2.currentlyImporting = state.currentlyImporting →
    codeModule.uuid ∈ importing ∨
      (∃ modulePath, outcome.1 = .ok modulePath) ∧
        ImportCompletes loader context importing state.toLoadedModules raiseIfNotFound
          registerModule codeModule outcome.2.toLoadedModules

/-- Code that leaves no further flag ends with an exception, or it completes. -/
theorem completes_of_execCode {depth : ℕ} (hdepth : LeavesFlagsOnlyIfComplete loader context depth)
    {importing : List UUID} {code : ModuleCode} {state : ImportState}
    {result : Except ImportException Unit × ImportState} (himports : state.Imports importing)
    (hresult : execCode (importCompBy context (importFromCodeModule loader context depth importing
      false true)) code state = some result)
    (hflags : result.2.currentlyImporting = state.currentlyImporting) :
    (∃ exception, result.1 = .error exception) ∨
      CodeCompletes loader context importing state.toLoadedModules code
        result.2.toLoadedModules := by
  have hkeeps (trafoId : PyStr) (state : ImportState) (outcome : ImportOutcome)
      (h : importCompBy context (importFromCodeModule loader context depth importing false true)
        trafoId state = some outcome) : KeepsFlags state outcome.2 :=
    keepsFlags_of_importCompBy (fun _ _ _ h => keepsFlags_of_import h) h
  induction code generalizing state with
  | finished =>
    obtain rfl := Option.some.inj hresult
    exact Or.inr .finished
  | raises exception =>
    obtain rfl := Option.some.inj hresult
    exact Or.inl ⟨exception, rfl⟩
  | importComp trafoId onReturn onRaise ihReturn ihRaise =>
    obtain ⟨outcome, houtcome, hcases⟩ := execCode_importComp hresult
    have hrest : KeepsFlags outcome.2 result.2 := by
      rcases hcases with ⟨_, -, hrest⟩ | ⟨_, -, hrest⟩
      · exact keepsFlags_of_execCode hkeeps hrest
      · exact keepsFlags_of_execCode hkeeps hrest
    -- neither the import nor what follows it leaves a flag
    obtain ⟨hfirst, hlast⟩ := (hkeeps _ _ _ houtcome).eq_of_eq hrest hflags
    have himports' : outcome.2.Imports importing := by
      intro uuid
      rw [hfirst, himports]
    cases hfound : importComp context trafoId with
    | error error =>
      rw [importCompBy, hfound] at houtcome
      obtain rfl := Option.some.inj houtcome
      rcases hcases with ⟨_, hok, -⟩ | ⟨exception, herror, hrest⟩
      · cases hok
      · obtain rfl := Except.error.inj herror
        exact (ihRaise _ himports hrest hlast).imp id (CodeCompletes.missing hfound)
    | ok found =>
      obtain ⟨codeModule, component⟩ := found
      rw [importCompBy, hfound] at houtcome
      by_cases hmem : codeModule.uuid ∈ importing
      · obtain rfl := importFromCodeModule_of_mem himports hmem houtcome
        rcases hcases with ⟨_, hok, -⟩ | ⟨exception, herror, hrest⟩
        · cases hok
        · obtain rfl := Except.error.inj herror
          exact (ihRaise _ himports' hrest hlast).imp id (CodeCompletes.cycle hfound hmem)
      · obtain ⟨⟨modulePath, hok⟩, hcompletes⟩ :=
          (hdepth himports houtcome hfirst).resolve_left hmem
        rcases hcases with ⟨_, -, hrest⟩ | ⟨exception, herror, -⟩
        · exact (ihReturn himports' hrest hlast).imp id (CodeCompletes.of_import hfound hcompletes)
        · cases hok.symm.trans herror

/-- An import whose exception is not that of a cycle leaves its flag. -/
theorem leavesFlagsOnlyIfComplete (depth : ℕ) :
    LeavesFlagsOnlyIfComplete loader context depth := by
  induction depth with
  | zero =>
    intro _ _ _ _ _ _ _ h
    cases h
  | succ depth ih =>
    intro importing raiseIfNotFound registerModule codeModule state outcome himports h hflags
    by_cases hmem : codeModule.uuid ∈ importing
    · exact Or.inl hmem
    · right
      have hrequest := @restored_request loader _ codeModule _ himports
      have himports' := (hrequest.imports himports).mark codeModule.uuid
      have hmodules : (state.request loader importing codeModule).modules = state.modules :=
        modules_known _ _
      have hleft {inner : ImportState} (hinner : inner.currentlyImporting codeModule.uuid = true) :
          inner.currentlyImporting ≠ state.currentlyImporting := by
        intro heq
        exact hmem ((himports _).mp (heq ▸ hinner))
      rcases importFromCodeModule_cases h with ⟨hflag, -⟩ | ⟨-, ⟨hloaded, rfl⟩ |
        ⟨-, -, exception, rfl⟩ | ⟨hmissing, hraise, code, result, hcode, hresult, rfl⟩⟩
      · exact absurd ((himports _).mp hflag) hmem
      · exact ⟨⟨_, rfl⟩, .loaded hmem (hmodules ▸ hloaded)⟩
      · refine absurd hflags (hleft ?_)
        rw [currentlyImporting_mark, update_self]
      · have hkept : KeepsFlags _ result.2 := keepsFlags_of_execCode (fun _ _ _ himport =>
          keepsFlags_of_importCompBy (fun _ _ _ h => keepsFlags_of_import h) himport) hresult
        have hself : result.2.currentlyImporting codeModule.uuid = true :=
          hkept _ (by rw [currentlyImporting_mark, update_self])
        rcases afterExec_cases codeModule.uuid
          (getModulePath loader codeModule state.toLoadedModules).1 registerModule result with
          ⟨hok, -, hafter⟩ | ⟨-, -, hafter⟩
        · rw [hafter] at hflags
          have hsame : result.2.currentlyImporting =
              update state.currentlyImporting codeModule.uuid true := by
            rw [← hflags, update_idem, ← hself, update_eq_self]
          obtain ⟨ended, inner⟩ := result
          obtain rfl : ended = .ok () := hok
          rcases completes_of_execCode ih himports' hresult hsame with ⟨_, herror⟩ | hcompletes
          · cases herror
          · exact ⟨⟨_, rfl⟩, .executed hmem (hmodules ▸ hmissing) hraise hcode hcompletes⟩
        · rw [hafter] at hflags
          exact absurd hflags (hleft hself)

/-! ## Sequences of calls -/

/-- After a call: no module is marked as being imported, and cycles were found where the requested
module was being imported. -/
def ImportState.Clean (state : ImportState) : Prop :=
  (∀ uuid, state.currentlyImporting uuid = false) ∧ CyclesReal state.requests

/-- Calls keep flags. -/
theorem keepsFlags_of_importCalls {depth : ℕ} {calls : List ImportCall} {state : ImportState}
    {outcomes : List ImportOutcome}
    (h : importCalls loader context depth calls state = some outcomes) :
    ∀ outcome ∈ outcomes, KeepsFlags state outcome.2 := by
  induction calls generalizing state outcomes with
  | nil =>
    obtain rfl := Option.some.inj h
    exact fun outcome houtcome => absurd houtcome List.not_mem_nil
  | cons call rest ih =>
    obtain ⟨first, hfirst, h⟩ := Option.bind_eq_some_iff.mp h
    obtain ⟨others, hothers, h⟩ := Option.bind_eq_some_iff.mp h
    obtain rfl := Option.some.inj h
    intro outcome houtcome
    rcases List.mem_cons.mp houtcome with rfl | houtcome
    · exact keepsFlags_of_import hfirst
    · exact (keepsFlags_of_import hfirst).trans (ih hothers outcome houtcome)

/-- Without flags no module is being imported. -/
theorem imports_nil {state : ImportState} (h : ∀ uuid, state.currentlyImporting uuid = false) :
    state.Imports [] := by
  intro uuid
  simp [h uuid]

/-- Calls leave clean states if and only if all of them complete. -/
theorem clean_importCalls_iff {depth : ℕ} {calls : List ImportCall} {state : ImportState}
    {outcomes : List ImportOutcome} (hclean : state.Clean)
    (h : importCalls loader context depth calls state = some outcomes) :
    (∀ outcome ∈ outcomes, outcome.2.Clean) ↔
      CallsComplete loader context calls state.toLoadedModules := by
  induction calls generalizing state outcomes with
  | nil =>
    obtain rfl := Option.some.inj h
    simp [CallsComplete]
  | cons call rest ih =>
    obtain ⟨first, hfirst, h⟩ := Option.bind_eq_some_iff.mp h
    obtain ⟨others, hothers, h⟩ := Option.bind_eq_some_iff.mp h
    obtain rfl := Option.some.inj h
    have himports := imports_nil hclean.1
    rw [List.forall_mem_cons, CallsComplete]
    constructor
    · rintro ⟨hcleanFirst, hcleanOthers⟩
      have hflags : first.2.currentlyImporting = state.currentlyImporting := by
        funext uuid
        rw [hclean.1, hcleanFirst.1]
      have hcompletes := ((leavesFlagsOnlyIfComplete depth himports hfirst hflags).resolve_left
        List.not_mem_nil).2
      exact ⟨_, hcompletes, (ih hcleanFirst hothers).mp hcleanOthers⟩
    · rintro ⟨loaded', hcompletes, hrest⟩
      have hrestored := hcompletes.restored himports hfirst
      have hcleanFirst : first.2.Clean :=
        ⟨fun uuid => by rw [hrestored.flags, hclean.1], hrestored.cycles hclean.2⟩
      exact ⟨hcleanFirst, (ih hcleanFirst hothers).mpr (hrestored.loaded ▸ hrest)⟩

/-- Calls have outcomes if they may be nested as deep as there are modules to import. -/
theorem exists_importCalls {codeModules : List CodeModule} (hcontext : context.HasOnly codeModules)
    (calls : List ImportCall) (state : ImportState) :
    ∃ outcomes, importCalls loader context (codeModules.length + 2) calls state =
      some outcomes := by
  induction calls generalizing state with
  | nil => exact ⟨[], rfl⟩
  | cons call rest ih =>
    have hdepth : unmarked codeModules (state.mark call.codeModule.uuid true) <
        codeModules.length + 1 := Nat.lt_succ_of_le List.countP_le_length
    obtain ⟨first, hfirst⟩ := @exists_import _ loader _ _ hcontext _ [] call.raiseIfNotFound
      call.registerModule call.codeModule state (Or.inr hdepth)
    obtain ⟨others, hothers⟩ := ih first.2
    refine ⟨first :: others, ?_⟩
    rw [importCalls, hfirst, Option.bind_eq_bind, Option.bind_some, hothers]
    rfl

/-- A prepared context holds the code modules of the execution. -/
theorem hasOnly_prepareRuntimeContextBindings (runtimeInput : ExecutionComponents V) :
    (prepareRuntimeContextBindings runtimeInput).HasOnly runtimeInput.codeModules :=
  fun _ _ h => (LastEntry.mem_of_lastEntry h).1

/-- A prepared state is clean. -/
theorem clean_prepareImportState (loader : CodeLoader) (runtimeInput : ExecutionComponents V)
    (modules : List PyStr) : (prepareImportState loader runtimeInput modules).Clean :=
  ⟨fun _ => rfl, fun _ hrequest => absurd hrequest List.not_mem_nil⟩

/-- In a prepared context imports have outcomes, and they restore the state and find cycles which
are real if and only if all of them complete. -/
theorem importCalls_clean_iff (loader : CodeLoader) (runtimeInput : ExecutionComponents V)
    (modules : List PyStr) (calls : List ImportCall) :
    (∃ outcomes, importCalls loader (prepareRuntimeContextBindings runtimeInput)
        (runtimeInput.codeModules.length + 2) calls
        (prepareImportState loader runtimeInput modules) = some outcomes) ∧
      ∀ depth outcomes, importCalls loader (prepareRuntimeContextBindings runtimeInput) depth calls
          (prepareImportState loader runtimeInput modules) = some outcomes →
        ((∀ outcome ∈ outcomes, outcome.2.Clean) ↔
          CallsComplete loader (prepareRuntimeContextBindings runtimeInput) calls
            (prepareImportState loader runtimeInput modules).toLoadedModules) := by
  have hcontext := hasOnly_prepareRuntimeContextBindings runtimeInput
  refine ⟨exists_importCalls hcontext calls _, fun depth outcomes houtcomes => ?_⟩
  exact clean_importCalls_iff (clean_prepareImportState loader runtimeInput modules) houtcomes

end Completes

/-! ## Code with a syntax error -/

/-- The code of a component, with a syntax error. -/
def brokenModule : CodeModule := ⟨"def main(:".toList, 1⟩

/-- A loader which compiles any other code to code without imports. -/
def sampleLoader : CodeLoader where
  compile := fun code => if code = brokenModule.code then none else some .finished
  hashCode := id

/-- An execution of the component. -/
def brokenInput : ExecutionComponents Unit where
  codeModules := [brokenModule]
  components := [⟨1, "Broken".toList, "1.0".toList, 1, "main".toList, [], [], by simp, by simp⟩]
  code_modules_unique := by simp
  components_unique := by simp

/-- A syntax error leaves the component marked as being imported. -/
theorem broken_not_clean : ¬ ∀ (loader : CodeLoader) (runtimeInput : ExecutionComponents Unit)
    (modules : List PyStr) (calls : List ImportCall) (depth : ℕ) (outcomes : List ImportOutcome),
    importCalls loader (prepareRuntimeContextBindings runtimeInput) depth calls
      (prepareImportState loader runtimeInput modules) = some outcomes →
    ∀ outcome ∈ outcomes, outcome.2.Clean := by
  intro h
  obtain ⟨outcomes, houtcomes⟩ := exists_importCalls
    (hasOnly_prepareRuntimeContextBindings brokenInput) [⟨brokenModule, false, true⟩]
    (prepareImportState sampleLoader brokenInput [])
  obtain ⟨loaded', hcompletes, -⟩ := (clean_importCalls_iff
    (clean_prepareImportState sampleLoader brokenInput []) houtcomes).mp
    (h _ _ _ _ _ _ houtcomes)
  cases hcompletes with
  | loaded _ hloaded => exact List.not_mem_nil hloaded
  | executed _ _ _ hcode => exact absurd hcode (by simp [sampleLoader])

end HetidaDesigner
