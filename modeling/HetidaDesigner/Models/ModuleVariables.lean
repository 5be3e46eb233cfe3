import HetidaDesigner.Models.ComponentCode
import HetidaDesigner.Models.Literals

/-!
# Module-level variables

`component/code_utils.py` keeps values in module-level variables of component code. It writes them
with libcst: a transformer visits all statements of a module, gives the first assignment to the
variable its value and removes the others, or appends one. It reads them with `ast`, by a scan for
the first such assignment.

The tree of libcst is lossless. Each of its nodes has an identity, by which the transformer
recognises the assignments it has gathered before, and a layout for printing.
-/

namespace HetidaDesigner

/-! ## Trees -/

/-- What nodes of the lossless tree have in common: an identity, and the blanks, comments and
parentheses around them. -/
structure CstNode where
  id : ℕ
  layout : PyStr

/-- An expression in the lossless tree. -/
structure CstExpression (F : Type) where
  layout : PyStr
  expression : PyExpr F

/-- The target of an assignment: a name or something else. -/
inductive AssignTarget
  | name (value : PyStr)
  | other (text : PyStr)
  deriving DecidableEq

/-- Statements without statements in them. -/
inductive SmallStatement (F : Type)
  | assign (node : CstNode) (targets : List AssignTarget) (value : CstExpression F)
  | other (node : CstNode) (text : PyStr)

/-- Statements of the lossless tree. A line may have several small statements; compound statements
and their clauses have statements in them. -/
inductive CstStatement (F : Type)
  | simpleStatementLine (node : CstNode) (body : List (SmallStatement F))
  | compound (node : CstNode) (header : PyStr) (body : List (CstStatement F))

/-- Statements of the abstract tree. -/
inductive AstStatement (F : Type)
  | assign (targets : List AssignTarget) (value : PyExpr F)
  | other (text : PyStr)
  | compound (header : PyStr) (body : List (AstStatement F))

section Trees

variable {F : Type}

/-- A small statement without its layout. -/
def SmallStatement.toAst : SmallStatement F → AstStatement F
  | .assign _ targets value => .assign targets value.expression
  | .other _ text => .other text

mutual

/-- The statements in a statement of the lossless tree. -/
def CstStatement.toAst : CstStatement F → List (AstStatement F)
  | .simpleStatementLine _ body => body.map SmallStatement.toAst
  | .compound _ header body => [.compound header (statementsToAst body)]

/-- The statements in a list of them. -/
def statementsToAst : List (CstStatement F) → List (AstStatement F)
  | [] => []
  | statement :: rest => statement.toAst ++ statementsToAst rest

end

/-- The assignments among small statements, with their targets. -/
def assignments (body : List (SmallStatement F)) : List (CstNode × List AssignTarget) :=
  body.filterMap fun statement =>
    match statement with
    | .assign node targets _ => some (node, targets)
    | .other _ _ => none

/-- The identities of some assignments. -/
def assignIds (assigns : List (CstNode × List AssignTarget)) : List ℕ :=
  assigns.map fun assign => assign.1.id

mutual

/-- The identities of all assignments in a statement. -/
def CstStatement.assignIds : CstStatement F → List ℕ
  | .simpleStatementLine _ body => HetidaDesigner.assignIds (assignments body)
  | .compound _ _ body => allAssignIds body

/-- The identities of all assignments in some statements. -/
def allAssignIds : List (CstStatement F) → List ℕ
  | [] => []
  | statement :: rest => statement.assignIds ++ allAssignIds rest

end

end Trees

/-- A parsed module. Its nodes are different objects. -/
structure CstModule (F : Type) where
  layout : PyStr
  body : List (CstStatement F)
  ids_unique : (allAssignIds body).Nodup

/-- The parts of `ast`, libcst and black which are used. -/
structure ModuleTools (F : Type) where
  /-- `cst.parse_module`; nothing for code with a syntax error. -/
  parseModule : PyStr → Option (CstModule F)
  /-- the code of a module with some layout and some statements -/
  moduleCode : PyStr → List (CstStatement F) → PyStr
  /-- `ast.parse`; nothing for code with a syntax error. -/
  parseAst : PyStr → Option (List (AstStatement F))
  /-- `ast.unparse` of a constant; nothing if the value is too complex. -/
  unparseConstant : PyValue F → Option PyStr
  /-- `format_code_with_black`; nothing for code that black rejects. -/
  formatCodeWithBlack : PyStr → Option PyStr
  /-- `cst.parse_expression`; nothing for code with a syntax error. -/
  parseExpression : PyStr → Option (CstExpression F)
  /-- what `ast.literal_eval` makes of expressions which are known by their text only -/
  evalOther : PyStr → Option (PyValue F)

/-! ## Writing -/

section Write

variable {F : Type}

/-- `cst_from_python_value` with formatting. -/
def cstFromPythonValue (tools : ModuleTools F) (value : PyValue F) :
    Except CodeError (CstExpression F) :=
  match tools.unparseConstant value with
  | none => .error .literalEval
  | some constantCode =>
    match (tools.formatCodeWithBlack constantCode).bind tools.parseExpression with
    | none => .error .codeParsing
    | some expression => .ok expression

/-- The fields of `GlobalAssignValueTransformer` but `found_once`, which changes on the way. -/
structure GlobalAssignValueTransformer (F : Type) where
  variableName : PyStr
  value : PyValue F
  replaceAll : Bool
  removeRepetitions : Bool
  assigns : List ℕ

/-- A line as it is after the removal of statements; it is removed if it has become empty. -/
def keptLine (node : CstNode) (body newBody : List (SmallStatement F)) : List (CstStatement F) :=
  if body ≠ [] ∧ newBody = [] then [] else [.simpleStatementLine node newBody]

/-- The assignments which `visit_Module` gathers in a statement of the module. -/
def gatherAssigns (variableName : PyStr) : CstStatement F → List ℕ
  | .simpleStatementLine _ body =>
    assignIds ((assignments body).filter fun assign => assign.2 = [.name variableName])
  | .compound _ _ _ => []

namespace GlobalAssignValueTransformer

variable (tools : ModuleTools F) (transformer : GlobalAssignValueTransformer F)

/-- `visit_Module` -/
def visitModule (body : List (CstStatement F)) : GlobalAssignValueTransformer F :=
  { transformer with assigns := body.flatMap (gatherAssigns transformer.variableName) }

/-- `leave_Assign` for an assignment; a removed one is nothing. -/
def leaveAssign (foundOnce : Bool) (node : CstNode) (targets : List AssignTarget)
    (value : CstExpression F) : Except CodeError (Bool × Option (SmallStatement F)) :=
  let original := SmallStatement.assign node targets value
  if node.id ∉ transformer.assigns then .ok (foundOnce, some original)
  else if targets.length ≠ 1 then .ok (foundOnce, some original)
  else if foundOnce && !transformer.replaceAll then
    .ok (foundOnce, if transformer.removeRepetitions then none else some original)
  else if targets = [.name transformer.variableName] then do
    let newValue ← cstFromPythonValue tools transformer.value
    return (true, some (.assign node targets newValue))
  else .ok (foundOnce, some original)

/-- Visit small statements. -/
def visitSmallStatements (foundOnce : Bool) :
    List (SmallStatement F) → Except CodeError (Bool × List (SmallStatement F))
  | [] => .ok (foundOnce, [])
  | .assign node targets value :: rest => do
    let (foundOnce, kept) ← transformer.leaveAssign tools foundOnce node targets value
    let (foundOnce, newRest) ← visitSmallStatements foundOnce rest
    return (foundOnce, kept.toList ++ newRest)
  | .other node text :: rest => do
    let (foundOnce, newRest) ← visitSmallStatements foundOnce rest
    return (foundOnce, .other node text :: newRest)

mutual

/-- Visit a statement, with whatever is in it. -/
def visitStatement (foundOnce : Bool) :
    CstStatement F → Except CodeError (Bool × List (CstStatement F))
  | .simpleStatementLine node body => do
    let (foundOnce, newBody) ← transformer.visitSmallStatements tools foundOnce body
    return (foundOnce, keptLine node body newBody)
  | .compound node header body => do
    let (foundOnce, newBody) ← visitStatements foundOnce body
    return (foundOnce, [.compound node header newBody])

/-- Visit statements one after the other. -/
def visitStatements (foundOnce : Bool) :
    List (CstStatement F) → Except CodeError (Bool × List (CstStatement F))
  | [] => .ok (foundOnce, [])
  | statement :: rest => do
    let (foundOnce, kept) ← visitStatement foundOnce statement
    let (foundOnce, newRest) ← visitStatements foundOnce rest
    return (foundOnce, kept ++ newRest)

end

/-- The line which `leave_Module` appends; nothing looks up the identities of new nodes. -/
def appendedLine (value : CstExpression F) : CstStatement F :=
  .simpleStatementLine ⟨0, []⟩ [.assign ⟨0, []⟩ [.name transformer.variableName] value]

/-- `leave_Module` -/
def leaveModule (foundOnce : Bool) (body : List (CstStatement F)) :
    Except CodeError (List (CstStatement F)) :=
  if foundOnce then .ok body
  else do
    let value ← cstFromPythonValue tools transformer.value
    return body ++ [transformer.appendedLine value]

/-- Visit a module. -/
def visit (body : List (CstStatement F)) : Except CodeError (List (CstStatement F)) := do
  let transformer := transformer.visitModule body
  let (foundOnce, newBody) ← transformer.visitStatements tools false body
  transformer.leaveModule tools foundOnce newBody

end GlobalAssignValueTransformer

/-- `GlobalAssignValueTransformer(variable_name, value)` -/
def globalAssignValueTransformer (variableName : PyStr) (value : PyValue F) :
    GlobalAssignValueTransformer F :=
  ⟨variableName, value, false, true, []⟩

/-- `update_module_level_variable` -/
def updateModuleLevelVariable (tools : ModuleTools F) (code variableName : PyStr)
    (value : PyValue F) : Except CodeError PyStr :=
  match tools.parseModule code with
  | none => .error .codeParsing
  | some parsed => do
    let newBody ← ((globalAssignValueTransformer variableName value).visit tools
      parsed.body).mapError fun _ => .codeParsing
    return tools.moduleCode parsed.layout newBody

end Write

/-! ## Reading -/

section Read

variable {F : Type}

/-- The scan of `get_global_from_code` through the statements of a module. -/
def globalFromStatements (tools : ModuleTools F) (variableName : PyStr)
    (defaultValue : PyValue F) : List (AstStatement F) → Except CodeError (PyValue F)
  | [] => .ok defaultValue
  | .assign [.name name] value :: rest =>
    if name = variableName then
      match literalEval tools.evalOther value with
      | none => .error .literalEval
      | some value => .ok value
    else globalFromStatements tools variableName defaultValue rest
  | _ :: rest => globalFromStatements tools variableName defaultValue rest

/-- `get_global_from_code` -/
def getGlobalFromCode (tools : ModuleTools F) (code variableName : PyStr)
    (defaultValue : PyValue F) : Except CodeError (PyValue F) :=
  match tools.parseAst code with
  | none => .error .codeParsing
  | some statements => globalFromStatements tools variableName defaultValue statements

end Read

/-! ## What an update does to the statements of a module -/

section Statements

variable {F : Type}

/-- A statement assigns to a variable as its only target. -/
def AstStatement.assignsTo (variableName : PyStr) : AstStatement F → Bool
  | .assign targets _ => targets = [.name variableName]
  | .other _ => false
  | .compound _ _ => false

/-- The first assignment to a variable gets a value, unless there was one before, and the others are
removed. -/
def updateStatements (variableName : PyStr) (value : PyExpr F) :
    Bool → List (AstStatement F) → List (AstStatement F)
  | _, [] => []
  | foundOnce, statement :: rest =>
    if statement.assignsTo variableName then
      if foundOnce then updateStatements variableName value true rest
      else .assign [.name variableName] value :: updateStatements variableName value true rest
    else statement :: updateStatements variableName value foundOnce rest

variable {variableName : PyStr} {value : PyExpr F}

/-- An assignment to a variable. -/
theorem assignsTo_assign (variableName : PyStr) (value : PyExpr F) :
    (AstStatement.assign [.name variableName] value).assignsTo variableName = true :=
  decide_eq_true rfl

/-- The first part of a list is updated, and then the second one. -/
theorem updateStatements_append (foundOnce : Bool) (first second : List (AstStatement F)) :
    updateStatements variableName value foundOnce (first ++ second) =
      updateStatements variableName value foundOnce first ++
        updateStatements variableName value
          (foundOnce || first.any (AstStatement.assignsTo variableName)) second := by
  induction first generalizing foundOnce with
  | nil => simp [updateStatements]
  | cons statement rest ih =>
    rw [List.cons_append, updateStatements, updateStatements, List.any_cons]
    by_cases hassigns : statement.assignsTo variableName
    · rw [if_pos hassigns, if_pos hassigns, hassigns, ih, Bool.true_or, Bool.or_true]
      cases foundOnce <;> rfl
    · rw [if_neg hassigns, if_neg hassigns, Bool.eq_false_iff.mpr hassigns, ih, Bool.false_or]
      rfl

/-- Other statements stay. -/
theorem filter_not_updateStatements (foundOnce : Bool) (statements : List (AstStatement F)) :
    (updateStatements variableName value foundOnce statements).filter
        (fun statement => !statement.assignsTo variableName) =
      statements.filter fun statement => !statement.assignsTo variableName := by
  induction statements generalizing foundOnce with
  | nil => rfl
  | cons statement rest ih =>
    rw [updateStatements]
    by_cases hassigns : statement.assignsTo variableName
    · rw [if_pos hassigns, List.filter_cons_of_neg (by simp [hassigns])]
      cases foundOnce with
      | true => exact ih true
      | false =>
        rw [if_neg (by decide), List.filter_cons_of_neg (by simp [assignsTo_assign])]
        exact ih true
    · rw [if_neg hassigns, List.filter_cons_of_pos (by simpa using hassigns),
        List.filter_cons_of_pos (by simpa using hassigns), ih]

/-- Of the assignments to the variable one stays, unless there was one before. -/
theorem filter_updateStatements (foundOnce : Bool) (statements : List (AstStatement F)) :
    (updateStatements variableName value foundOnce statements).filter
        (AstStatement.assignsTo variableName) =
      if !foundOnce && statements.any (AstStatement.assignsTo variableName) then
        [.assign [.name variableName] value] else [] := by
  induction statements generalizing foundOnce with
  | nil => simp [updateStatements]
  | cons statement rest ih =>
    rw [updateStatements, List.any_cons]
    by_cases hassigns : statement.assignsTo variableName
    · rw [if_pos hassigns, hassigns, Bool.true_or, Bool.and_true]
      cases foundOnce with
      | true => simpa using ih true
      | false =>
        rw [if_neg (by decide), List.filter_cons_of_pos (assignsTo_assign _ _), ih]
        rfl
    · rw [if_neg hassigns, List.filter_cons_of_neg hassigns, ih, Bool.eq_false_iff.mpr hassigns,
        Bool.false_or]

/-- Without an assignment to the variable nothing changes. -/
theorem updateStatements_of_none {statements : List (AstStatement F)}
    (h : statements.any (AstStatement.assignsTo variableName) = false) (foundOnce : Bool) :
    updateStatements variableName value foundOnce statements = statements := by
  induction statements with
  | nil => rfl
  | cons statement rest ih =>
    rw [List.any_cons, Bool.or_eq_false_iff] at h
    rw [updateStatements, if_neg (by simp [h.1]), ih h.2]

/-- The scan ignores other statements. -/
theorem globalFromStatements_cons_of_not {tools : ModuleTools F} {defaultValue : PyValue F}
    {statement : AstStatement F} (h : ¬ statement.assignsTo variableName) (rest : List (AstStatement F)) :
    globalFromStatements tools variableName defaultValue (statement :: rest) =
      globalFromStatements tools variableName defaultValue rest := by
  cases statement with
  | other text => rfl
  | compound header body => rfl
  | assign targets value =>
    match targets with
    | [] => rfl
    | .other _ :: _ => rfl
    | .name _ :: _ :: _ => rfl
    | [.name name] =>
      have hname : name ≠ variableName := by
        rintro rfl
        exact h (assignsTo_assign name value)
      rw [globalFromStatements, if_neg hname]

/-- The scan reads the first assignment to the variable. -/
theorem globalFromStatements_of_filter {tools : ModuleTools F} {defaultValue : PyValue F}
    {statements rest : List (AstStatement F)}
    (h : statements.filter (AstStatement.assignsTo variableName) =
      .assign [.name variableName] value :: rest) {result : PyValue F}
    (hvalue : literalEval tools.evalOther value = some result) :
    globalFromStatements tools variableName defaultValue statements = .ok result := by
  induction statements with
  | nil => exact absurd h (by simp)
  | cons statement others ih =>
    by_cases hassigns : statement.assignsTo variableName
    · rw [List.filter_cons_of_pos hassigns] at h
      obtain ⟨rfl, -⟩ := List.cons.inj h
      rw [globalFromStatements, if_pos rfl, hvalue]
    · rw [List.filter_cons_of_neg hassigns] at h
      rw [globalFromStatements_cons_of_not hassigns]
      exact ih h

end Statements

/-! ## What the transformer does -/

section Transformer

open GlobalAssignValueTransformer

variable {F : Type} {tools : ModuleTools F} {transformer : GlobalAssignValueTransformer F}

/-- Assignments that are not gathered stay as they are. -/
theorem visitSmallStatements_of_notGathered (foundOnce : Bool) {body : List (SmallStatement F)}
    (h : ∀ id ∈ assignIds (assignments body), id ∉ transformer.assigns) :
    transformer.visitSmallStatements tools foundOnce body = .ok (foundOnce, body) := by
  induction body with
  | nil => rfl
  | cons statement rest ih =>
    cases statement with
    | other node text =>
      rw [visitSmallStatements, ih h]
      rfl
    | assign node targets value =>
      have hrest := ih fun id hid => h id (List.mem_cons_of_mem _ hid)
      have hnode : node.id ∉ transformer.assigns := h node.id List.mem_cons_self
      rw [visitSmallStatements, leaveAssign, if_pos hnode]
      change (visitSmallStatements tools transformer foundOnce rest >>= _) = _
      rw [hrest]
      rfl

/-- A line which has not changed is kept. -/
theorem keptLine_self (node : CstNode) (body : List (SmallStatement F)) :
    keptLine node body body = [.simpleStatementLine node body] :=
  if_neg fun h => h.1 h.2

mutual

/-- A statement without gathered assignments stays as it is. -/
theorem visitStatement_of_notGathered (foundOnce : Bool) : ∀ statement : CstStatement F,
    (∀ id ∈ statement.assignIds, id ∉ transformer.assigns) →
      transformer.visitStatement tools foundOnce statement = .ok (foundOnce, [statement])
  | .simpleStatementLine node body, h => by
    rw [visitStatement, visitSmallStatements_of_notGathered foundOnce h]
    change Except.ok (foundOnce, keptLine node body body) = _
    rw [keptLine_self]
  | .compound node header body, h => by
    rw [visitStatement, visitStatements_of_notGathered foundOnce body h]
    rfl

/-- Statements without gathered assignments stay as they are. -/
theorem visitStatements_of_notGathered (foundOnce : Bool) : ∀ statements : List (CstStatement F),
    (∀ id ∈ allAssignIds statements, id ∉ transformer.assigns) →
      transformer.visitStatements tools foundOnce statements = .ok (foundOnce, statements)
  | [], _ => rfl
  | statement :: rest, h => by
    rw [allAssignIds] at h
    have hfirst := visitStatement_of_notGathered foundOnce statement fun id hid =>
      h id (List.mem_append_left _ hid)
    have hrest := visitStatements_of_notGathered foundOnce rest fun id hid =>
      h id (List.mem_append_right _ hid)
    rw [visitStatements, hfirst]
    change (visitStatements tools transformer foundOnce rest >>= _) = _
    rw [hrest]
    rfl

end

/-- Removing an empty line removes no statement. -/
theorem statementsToAst_keptLine (node : CstNode) (body newBody : List (SmallStatement F)) :
    statementsToAst (keptLine node body newBody) = newBody.map SmallStatement.toAst := by
  unfold keptLine
  split
  · rename_i hremoved
    rw [hremoved.2]
    rfl
  · rw [statementsToAst, statementsToAst, List.append_nil]
    rfl

/-- The statements of two parts of a module. -/
theorem statementsToAst_append (first second : List (CstStatement F)) :
    statementsToAst (first ++ second) = statementsToAst first ++ statementsToAst second := by
  induction first with
  | nil => rfl
  | cons statement rest ih => rw [List.cons_append, statementsToAst, ih, statementsToAst,
      List.append_assoc]

/-- The gathered assignments of a statement of the module are those to the variable. -/
def GatheredRight (transformer : GlobalAssignValueTransformer F) : CstStatement F → Prop
  | .simpleStatementLine _ body => ∀ assign ∈ assignments body,
      assign.1.id ∈ transformer.assigns ↔ assign.2 = [.name transformer.variableName]
  | .compound _ _ body => ∀ id ∈ allAssignIds body, id ∉ transformer.assigns

variable {value : CstExpression F} (hreplace : transformer.replaceAll = false)
  (hremove : transformer.removeRepetitions = true)
  (hvalue : cstFromPythonValue tools transformer.value = .ok value)

include hreplace hremove hvalue

/-- The small statements of a line are updated. -/
theorem visitSmallStatements_eq (foundOnce : Bool) {body : List (SmallStatement F)}
    (h : ∀ assign ∈ assignments body,
      assign.1.id ∈ transformer.assigns ↔ assign.2 = [.name transformer.variableName]) :
    ∃ newBody, transformer.visitSmallStatements tools foundOnce body =
        .ok (foundOnce || (body.map SmallStatement.toAst).any
          (AstStatement.assignsTo transformer.variableName), newBody) ∧
      newBody.map SmallStatement.toAst =
        updateStatements transformer.variableName value.expression foundOnce
          (body.map SmallStatement.toAst) := by
  induction body generalizing foundOnce with
  | nil => exact ⟨[], by rw [visitSmallStatements]; simp, rfl⟩
  | cons statement rest ih =>
    cases statement with
    | other node text =>
      obtain ⟨newRest, hvisit, hrest⟩ := ih foundOnce h
      refine ⟨.other node text :: newRest, ?_, ?_⟩
      · rw [visitSmallStatements, hvisit, List.map_cons, List.any_cons]
        rfl
      · rw [List.map_cons, hrest]
        rfl
    | assign node targets oldValue =>
      have hnode : node.id ∈ transformer.assigns ↔ targets = [.name transformer.variableName] :=
        h (node, targets) List.mem_cons_self
      have hrestGathered := fun assign hassign => h assign (List.mem_cons_of_mem _ hassign)
      rw [visitSmallStatements, leaveAssign, List.map_cons, List.any_cons, SmallStatement.toAst,
        updateStatements, AstStatement.assignsTo]
      by_cases hgathered : node.id ∈ transformer.assigns
      · have htargets := hnode.mp hgathered
        rw [if_neg (not_not_intro hgathered), if_neg (by simp [htargets]), hreplace, hremove,
          Bool.not_false, Bool.and_true, htargets, decide_eq_true rfl, Bool.true_or, Bool.or_true]
        obtain ⟨newRest, hvisit, hrest⟩ := ih true hrestGathered
        rw [Bool.true_or] at hvisit
        cases foundOnce with
        | true =>
          refine ⟨newRest, ?_, hrest⟩
          change (visitSmallStatements tools transformer true rest >>= _) = _
          rw [hvisit]
          rfl
        | false =>
          refine ⟨.assign node [.name transformer.variableName] value :: newRest, ?_, ?_⟩
          · rw [if_neg (by decide), if_pos rfl, hvalue]
            change (visitSmallStatements tools transformer true rest >>= _) = _
            rw [hvisit]
            rfl
          · rw [List.map_cons, hrest]
            rfl
      · have htargets := mt hnode.mpr hgathered
        obtain ⟨newRest, hvisit, hrest⟩ := ih foundOnce hrestGathered
        rw [if_pos hgathered, if_neg (by simpa using htargets), decide_eq_false htargets,
          Bool.false_or]
        refine ⟨.assign node targets oldValue :: newRest, ?_, ?_⟩
        · change (visitSmallStatements tools transformer foundOnce rest >>= _) = _
          rw [hvisit]
          rfl
        · rw [List.map_cons, hrest]
          rfl

/-- The statements of a module are updated. -/
theorem visitStatements_eq (foundOnce : Bool) {body : List (CstStatement F)}
    (h : ∀ statement ∈ body, GatheredRight transformer statement) :
    ∃ newBody, transformer.visitStatements tools foundOnce body =
        .ok (foundOnce || (statementsToAst body).any
          (AstStatement.assignsTo transformer.variableName), newBody) ∧
      statementsToAst newBody =
        updateStatements transformer.variableName value.expression foundOnce
          (statementsToAst body) := by
  induction body generalizing foundOnce with
  | nil => exact ⟨[], by rw [visitStatements]; simp [statementsToAst], rfl⟩
  | cons statement rest ih =>
    rw [List.forall_mem_cons] at h
    obtain ⟨kept, hkept, hkeptAst⟩ : ∃ kept, transformer.visitStatement tools foundOnce statement =
        .ok (foundOnce || statement.toAst.any
          (AstStatement.assignsTo transformer.variableName), kept) ∧
        statementsToAst kept = updateStatements transformer.variableName value.expression foundOnce
          statement.toAst := by
      cases statement with
      | simpleStatementLine node line =>
        obtain ⟨newLine, hvisit, hline⟩ :=
          visitSmallStatements_eq hreplace hremove hvalue foundOnce h.1
        refine ⟨keptLine node line newLine, ?_, ?_⟩
        · rw [visitStatement, hvisit]
          rfl
        · rw [CstStatement.toAst, ← hline]
          exact statementsToAst_keptLine node line newLine
      | compound node header inner =>
        refine ⟨[.compound node header inner], ?_, ?_⟩
        · rw [visitStatement_of_notGathered foundOnce (.compound node header inner) h.1]
          simp [CstStatement.toAst, AstStatement.assignsTo]
        · rw [updateStatements_of_none (by simp [CstStatement.toAst, AstStatement.assignsTo])]
          rw [statementsToAst, statementsToAst, List.append_nil]
    obtain ⟨newRest, hvisit, hrest⟩ := ih _ h.2
    refine ⟨kept ++ newRest, ?_, ?_⟩
    · rw [visitStatements, hkept]
      change (visitStatements tools transformer _ rest >>= _) = _
      rw [hvisit, statementsToAst, List.any_append, Bool.or_assoc]
      rfl
    · rw [statementsToAst_append, hkeptAst, hrest, statementsToAst, updateStatements_append]

omit hreplace hremove hvalue

end Transformer

/-! ## What is gathered -/

section Gather

variable {F : Type}

/-- All identities are those in the statements. -/
theorem allAssignIds_eq_flatMap (body : List (CstStatement F)) :
    allAssignIds body = body.flatMap CstStatement.assignIds := by
  induction body with
  | nil => rfl
  | cons statement rest ih => rw [allAssignIds, ih, List.flatMap_cons]

/-- What is gathered in a statement is among its assignments. -/
theorem gatherAssigns_subset (variableName : PyStr) (statement : CstStatement F) :
    gatherAssigns variableName statement ⊆ statement.assignIds := by
  cases statement with
  | simpleStatementLine node body => exact List.map_subset _ (List.filter_sublist.subset)
  | compound node header body => exact List.nil_subset _

/-- In a module whose nodes are different objects the right assignments are gathered. -/
theorem gatheredRight_of_visitModule (parsed : CstModule F)
    (transformer : GlobalAssignValueTransformer F) :
    ∀ statement ∈ parsed.body, GatheredRight (transformer.visitModule parsed.body) statement := by
  have hunique := parsed.ids_unique
  rw [allAssignIds_eq_flatMap, List.nodup_flatMap] at hunique
  obtain ⟨hinner, hdisjoint⟩ := hunique
  -- An identity in a statement is gathered only there.
  have hsame (statement : CstStatement F) (hstatement : statement ∈ parsed.body) (id : ℕ)
      (hid : id ∈ statement.assignIds) : id ∈ (transformer.visitModule parsed.body).assigns ↔
        id ∈ gatherAssigns transformer.variableName statement := by
    constructor
    · intro hgathered
      obtain ⟨other, hother, hid'⟩ := List.mem_flatMap.mp hgathered
      by_cases heq : statement = other
      · exact heq ▸ hid'
      · have hsymm : Std.Symm (Function.onFun List.Disjoint (@CstStatement.assignIds F)) :=
          ⟨fun _ _ h => h.symm⟩
        have hpair := hdisjoint.forall hstatement hother heq
        exact absurd (gatherAssigns_subset _ _ hid') (hpair hid)
    · exact fun hgathered => List.mem_flatMap.mpr ⟨statement, hstatement, hgathered⟩
  intro statement hstatement
  cases statement with
  | compound node header body =>
    intro id hid hgathered
    exact absurd ((hsame _ hstatement id hid).mp hgathered) List.not_mem_nil
  | simpleStatementLine node body =>
    intro assign hassign
    refine (hsame _ hstatement assign.1.id (List.mem_map_of_mem hassign)).trans ?_
    constructor
    · intro hgathered
      obtain ⟨other, hother, hid⟩ := List.mem_map.mp hgathered
      obtain ⟨hmem, htargets⟩ := List.mem_filter.mp hother
      obtain rfl := List.inj_on_of_nodup_map (hinner _ hstatement) hmem hassign hid
      exact of_decide_eq_true htargets
    · intro htargets
      exact List.mem_map_of_mem (List.mem_filter.mpr ⟨hassign, decide_eq_true htargets⟩)

end Gather

/-! ## Reading back what has been written -/

section RoundTrip

variable {F : Type}

/-- `ast.unparse` writes the expression of a value, and formatting does not change what it
evaluates to. -/
structure ModuleTools.FormatsValue (tools : ModuleTools F) (value : PyValue F) : Prop where
  unparsed : ∃ code expression, tools.unparseConstant value = some code ∧
    tools.parseExpression code = some expression ∧ expression.expression = exprOf value
  formatted : ∀ code expression, tools.unparseConstant value = some code →
    tools.parseExpression code = some expression →
      ∃ formatted newExpression, tools.formatCodeWithBlack code = some formatted ∧
        tools.parseExpression formatted = some newExpression ∧
        literalEval tools.evalOther newExpression.expression =
          literalEval tools.evalOther expression.expression

/-- `ast` and libcst agree on the statements of some code, and of the module into which the
transformer turns it. -/
structure ModuleTools.TreesAgree (tools : ModuleTools F) (code : PyStr) (parsed : CstModule F)
    (transformer : GlobalAssignValueTransformer F) : Prop where
  before : tools.parseAst code = some (statementsToAst parsed.body)
  after : ∀ newBody, transformer.visit tools parsed.body = .ok newBody →
    tools.parseAst (tools.moduleCode parsed.layout newBody) = some (statementsToAst newBody)

variable {tools : ModuleTools F} {value : PyValue F}

/-- The expression which is written for a value evaluates to it. -/
theorem exists_cstFromPythonValue (hvalue : value.IsLiteral) (hformats : tools.FormatsValue value) :
    ∃ expression, cstFromPythonValue tools value = .ok expression ∧
      literalEval tools.evalOther expression.expression = some value := by
  obtain ⟨code, plain, hcode, hplain, hexpr⟩ := hformats.unparsed
  obtain ⟨formatted, expression, hformatted, hexpression, heval⟩ :=
    hformats.formatted code plain hcode hplain
  refine ⟨expression, ?_, ?_⟩
  · unfold cstFromPythonValue
    rw [hcode]
    dsimp only
    rw [hformatted, Option.bind_some, hexpression]
  · rw [heval, hexpr, literalEval_exprOf hvalue]

/-- The statements of a module after a visit. -/
theorem exists_visit {variableName : PyStr} {expression : CstExpression F}
    (hexpression : cstFromPythonValue tools value = .ok expression) (parsed : CstModule F) :
    ∃ newBody, (globalAssignValueTransformer variableName value).visit tools parsed.body =
        .ok newBody ∧
      (statementsToAst newBody).filter (AstStatement.assignsTo variableName) =
        [.assign [.name variableName] expression.expression] ∧
      (statementsToAst newBody).filter (fun statement => !statement.assignsTo variableName) =
        (statementsToAst parsed.body).filter
          fun statement => !statement.assignsTo variableName := by
  set transformer := (globalAssignValueTransformer variableName value).visitModule parsed.body
    with htransformer
  obtain ⟨newBody, hvisit, hnew⟩ :=
    @visitStatements_eq F tools transformer expression rfl rfl hexpression false parsed.body
      (gatheredRight_of_visitModule parsed (globalAssignValueTransformer variableName value))
  have hname : transformer.variableName = variableName := rfl
  rw [hname, Bool.false_or] at hvisit
  rw [hname] at hnew
  have hrun : (globalAssignValueTransformer variableName value).visit tools parsed.body =
      transformer.leaveModule tools
        ((statementsToAst parsed.body).any (AstStatement.assignsTo variableName)) newBody := by
    unfold GlobalAssignValueTransformer.visit
    dsimp only
    rw [← htransformer, hvisit]
    rfl
  cases hany : (statementsToAst parsed.body).any (AstStatement.assignsTo variableName) with
  | true =>
    refine ⟨newBody, ?_, ?_, ?_⟩
    · rw [hrun, hany]
      rfl
    · rw [hnew, filter_updateStatements, hany]
      rfl
    · rw [hnew, filter_not_updateStatements]
  | false =>
    rw [updateStatements_of_none hany] at hnew
    have hnone : (statementsToAst parsed.body).filter (AstStatement.assignsTo variableName) = [] :=
      List.filter_eq_nil_iff.mpr fun statement hstatement hassigns =>
        List.any_eq_false.mp hany statement hstatement hassigns
    have happended : statementsToAst [transformer.appendedLine expression] =
        [.assign [.name variableName] expression.expression] := rfl
    refine ⟨newBody ++ [transformer.appendedLine expression], ?_, ?_, ?_⟩
    · rw [hrun, hany, GlobalAssignValueTransformer.leaveModule, if_neg (by decide)]
      change (cstFromPythonValue tools value >>= _) = _
      rw [hexpression]
      rfl
    · rw [statementsToAst_append, happended, hnew, List.filter_append, hnone, List.nil_append,
        List.filter_cons_of_pos (assignsTo_assign _ _), List.filter_nil]
    · rw [statementsToAst_append, happended, hnew, List.filter_append,
        List.filter_cons_of_neg (by simp [assignsTo_assign]), List.filter_nil, List.append_nil]

end RoundTrip

/-- A value which is stored in a module-level variable is read back. The updated code has exactly
one assignment to the variable as the only target, and all other statements are there as before. -/
theorem getGlobalFromCode_updateModuleLevelVariable {F : Type} (tools : ModuleTools F)
    (code variableName : PyStr) (value defaultValue : PyValue F) (parsed : CstModule F)
    (hparsed : tools.parseModule code = some parsed) (hvalue : value.IsLiteral)
    (hformats : tools.FormatsValue value)
    (hagree : tools.TreesAgree code parsed (globalAssignValueTransformer variableName value)) :
    ∃ newCode before after,
      updateModuleLevelVariable tools code variableName value = .ok newCode ∧
      getGlobalFromCode tools newCode variableName defaultValue = .ok value ∧
      tools.parseAst code = some before ∧ tools.parseAst newCode = some after ∧
      (after.filter (AstStatement.assignsTo variableName)).length = 1 ∧
      after.filter (fun statement => !statement.assignsTo variableName) =
        before.filter fun statement => !statement.assignsTo variableName := by
  obtain ⟨expression, hexpression, heval⟩ := exists_cstFromPythonValue hvalue hformats
  obtain ⟨newBody, hvisit, hassigns, hothers⟩ :=
    @exists_visit _ _ _ variableName _ hexpression parsed
  have hafter := hagree.after newBody hvisit
  refine ⟨_, _, _, ?_, ?_, hagree.before, hafter, ?_, hothers⟩
  · unfold updateModuleLevelVariable
    rw [hparsed]
    dsimp only
    rw [hvisit]
    rfl
  · unfold getGlobalFromCode
    rw [hafter]
    exact globalFromStatements_of_filter hassigns heval
  · rw [hassigns, List.length_singleton]

/-! ## Three assignments on two lines -/

/-- An assignment to a variable with a name of one letter. -/
def letterAssign (id : ℕ) (name : Char) (value : PyExpr Empty) : SmallStatement Empty :=
  .assign ⟨id, []⟩ [.name [name]] ⟨[], value⟩

/-- A line with two assignments and another one with a repetition. -/
def repeatedModule : CstModule Empty where
  layout := []
  body := [
    .simpleStatementLine ⟨0, []⟩ [letterAssign 1 'x' (.int 1), letterAssign 2 'y' (.int 2)],
    .simpleStatementLine ⟨3, []⟩ [letterAssign 4 'x' (.int 3)]]
  ids_unique := show [1, 2, 4].Nodup by decide

/-- The code of the two lines. -/
def repeatedCode : PyStr := "x=1;y=2\nx=3\n".toList

/-- The code after storing a value in `x`. -/
def storedCode : PyStr := "x=-5;y=2\n".toList

/-- Parsers, and printers which write the code above. -/
def repeatedTools : ModuleTools Empty where
  parseModule := fun code => if code = repeatedCode then some repeatedModule else none
  moduleCode := fun _ _ => storedCode
  parseAst := fun code =>
    if code = repeatedCode then some (statementsToAst repeatedModule.body)
    else if code = storedCode then
      some [.assign [.name ['x']] (.minus (.int 5)), .assign [.name ['y']] (.int 2)]
    else none
  unparseConstant := fun _ => some ['-', '5']
  formatCodeWithBlack := fun code => some (code ++ ['\n'])
  parseExpression := fun _ => some ⟨[], .minus (.int 5)⟩
  evalOther := fun _ => none

/-- The value `-5` is stored in `x` and read back. -/
theorem repeatedCode_stored :
    ∃ newCode before after,
      updateModuleLevelVariable repeatedTools repeatedCode ['x'] (.int (-5)) = .ok newCode ∧
      getGlobalFromCode repeatedTools newCode ['x'] .none = .ok (.int (-5)) ∧
      repeatedTools.parseAst repeatedCode = some before ∧
      repeatedTools.parseAst newCode = some after ∧
      (after.filter (AstStatement.assignsTo ['x'])).length = 1 ∧
      after.filter (fun statement => !statement.assignsTo ['x']) =
        before.filter fun statement => !statement.assignsTo ['x'] := by
  have hparsed : repeatedTools.parseModule repeatedCode = some repeatedModule := by
    simp [repeatedTools]
  have hbefore : repeatedTools.parseAst repeatedCode =
      some (statementsToAst repeatedModule.body) := by
    simp [repeatedTools]
  have hafter : repeatedTools.parseAst storedCode =
      some [.assign [.name ['x']] (.minus (.int 5)), .assign [.name ['y']] (.int 2)] := by
    have hne : storedCode ≠ repeatedCode := by decide
    simp [repeatedTools, hne]
  refine getGlobalFromCode_updateModuleLevelVariable repeatedTools repeatedCode ['x'] (.int (-5))
    .none repeatedModule hparsed (.int (-5)) ⟨⟨_, _, rfl, rfl, rfl⟩, ?_⟩ ⟨hbefore, ?_⟩
  · intro code expression _ hexpression
    obtain rfl := Option.some.inj hexpression
    exact ⟨_, _, rfl, rfl, rfl⟩
  · intro newBody hvisit
    have hresult : (globalAssignValueTransformer ['x'] (.int (-5))).visit repeatedTools
        repeatedModule.body = .ok [.simpleStatementLine ⟨0, []⟩
          [letterAssign 1 'x' (.minus (.int 5)), letterAssign 2 'y' (.int 2)]] := rfl
    obtain rfl := Except.ok.inj (hresult.symm.trans hvisit)
    exact hafter

end HetidaDesigner
