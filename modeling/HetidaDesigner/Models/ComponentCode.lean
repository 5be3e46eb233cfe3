import HetidaDesigner.Library.SplitFirst
import HetidaDesigner.Models.Lifecycle
import HetidaDesigner.Models.Uuids

/-!
# Component code

The generation and update of component code in `component/code.py` and the reading of component
imports in `component/code_utils.py`. The Python parser, the code formatter and the textual
representation of default values are parameters. A text is replaced by basic string methods
between two marker lines, as in the source.
-/

namespace HetidaDesigner

open Checks SplitFirst

/-- Python expressions as far as the search for imports looks into them. -/
inductive Expression
  /-- A call; the function has a name if it is a plain identifier. -/
  | call (function : Option PyStr) (args : List Expression)
  /-- A literal, with its value if that is a text. -/
  | literal (text : Option PyStr)
  | other

/-- Statements on module level. -/
inductive Statement
  | assign (targets : ℕ) (value : Expression)
  | other

/-- Errors raised on the way to new code. -/
inductive CodeError
  | codeParsing
  | literalEval
  | literalValidation
  | notImplemented
  | typeError
  | parseDefaultValue
  deriving DecidableEq, Repr

/-- The outcome of writing a default value as text; the code treats type errors specially. -/
abbrev DefaultValueText := Except CodeError PyStr

/-- External tools which the code functions rely on. -/
structure CodeTools (V D : Type) where
  /-- `ast.parse`; nothing for code with a syntax error. -/
  parse : PyStr → Option (List Statement)
  /-- the tables by which `UUID` reads digits -/
  numerals : NumeralTables
  /-- `black.format_file_contents`; nothing for code that black rejects. -/
  black : PyStr → Option PyStr
  /-- `update_module_level_variable` by libcst, for a wiring or `null`; nothing for code that
  libcst rejects. -/
  updateModuleLevelVariable : PyStr → PyStr → Option (WorkflowWiring D) → Option PyStr
  /-- `component_info_default_value_string` -/
  componentInfoDefaultValue : TransformationInput V → DefaultValueText
  /-- `function_signature_default_value_string` -/
  functionSignatureDefaultValue : TransformationInput V → DefaultValueText
  /-- `datetime.isoformat` -/
  isoformat : Timestamp → PyStr
  /-- `str` on UUIDs -/
  uuidStr : UUID → PyStr

/-! ## Component imports -/

/-- The argument of a call of `import_comp`: the text as it is found and the id it stands for, by
which the database knows it. -/
structure ImportedText where
  text : PyStr
  id : UUID
  deriving DecidableEq

/-- The argument as `UUID` reads it. -/
def importedText (tables : NumeralTables) (text : PyStr) : Option ImportedText :=
  (uuidOfText tables text).map fun id => ⟨text, id⟩

/-- The import made by a statement, if it assigns the result of `import_comp` to one target. -/
def componentImport (tables : NumeralTables) : Statement → Except CodeError (Option ImportedText)
  | .assign 1 (.call (some function) args) =>
    if function = "import_comp".toList then
      match args with
      | [] => .ok none
      | [.literal (some text)] =>
        match importedText tables text with
        | some found => .ok (some found)
        | none => .error .literalValidation
      | [.literal none] => .error .literalValidation
      | [_] => .error .literalEval
      | _ => .error .notImplemented
    else .ok none
  | _ => .ok none

/-- The imports of a list of statements in order. -/
def componentImports (tables : NumeralTables) :
    List Statement → Except CodeError (List ImportedText)
  | [] => .ok []
  | statement :: rest => do
    let found ← componentImport tables statement
    let others ← componentImports tables rest
    return found.toList ++ others

section Code

variable {V D : Type}

/-- What component code imports globally; code that cannot be parsed imports nothing. -/
def getGlobalComponentImports (tools : CodeTools V D) (code : PyStr) :
    Except CodeError (List ImportedText) :=
  match tools.parse code with
  | none => .ok []
  | some statements => componentImports tools.numerals statements

/-! ## The function header -/

/-- The first line of the generated part. -/
def doNotEditBelow : PyStr := "# ***** DO NOT EDIT LINES BELOW *****".toList

/-- The last line of the generated part. -/
def doNotEditAbove : PyStr := "    # ***** DO NOT EDIT LINES ABOVE *****\n".toList

/-- `imports_template` -/
def importsTemplate : PyStr :=
  ("import logging\n\n# add your own imports here.\n# See\n" ++
    "#   https://github.com/hetida/hetida-designer/tree/release/docs/component_tips.md\n" ++
    "# for component writing features and tips (logging, debugging, importing other components)" ++
    "\n\nlogger = logging.getLogger(__name__)\n\n").toList

/-- `function_body_template` -/
def functionBodyTemplate : PyStr := "\n    # write your function code here.\n    pass\n".toList

/-- The value of a data type. -/
def DataType.value : DataType → PyStr
  | .integer => "INT".toList
  | .float => "FLOAT".toList
  | .string => "STRING".toList
  | .dataFrame => "DATAFRAME".toList
  | .series => "SERIES".toList
  | .multiTSFrame => "MULTITSFRAME".toList
  | .boolean => "BOOLEAN".toList
  | .any => "ANY".toList
  | .plotlyJson => "PLOTLYJSON".toList

/-- The value of a state. -/
def State.value : State → PyStr
  | .draft => "DRAFT".toList
  | .released => "RELEASED".toList
  | .disabled => "DISABLED".toList

/-- A text in double quotes. -/
def quoted (s : PyStr) : PyStr := '"' :: s ++ ['"']

/-- `default_value_part`: nothing if the value has a wrong type. -/
def defaultValuePart (tools : CodeTools V D) (input : TransformationInput V) : DefaultValueText :=
  match input.type with
  | .required => .ok []
  | .optional =>
    match tools.componentInfoDefaultValue input with
    | .ok text => .ok (", \"default_value\": ".toList ++ text)
    | .error .typeError => .ok []
    | .error e => .error e

/-- The entry of an io in the component info. -/
def componentInfoEntry (name : PyStr) (dataType : DataType) (defaultValue : PyStr) : PyStr :=
  "    ".toList ++ quoted name ++ ": \x7b\"data_type\": ".toList ++ quoted dataType.value ++
    defaultValue ++ "\x7d,\n    ".toList

/-- A dictionary text around entries; it breaks the line if there are ios at all. -/
def componentInfoDict (anyIos : Bool) (entries : List PyStr) : PyStr :=
  "\x7b".toList ++ (if anyIos then "\n    ".toList else []) ++ entries.flatten ++ "\x7d".toList

/-- The parameter of an input in the signature of the entrypoint; unnamed inputs have none. -/
def signatureParameter (tools : CodeTools V D) (input : TransformationInput V) :
    Except CodeError (Option PyStr) :=
  match input.name, input.type with
  | none, _ => .ok none
  | some name, .required => .ok (some name)
  | some name, .optional => do
    let text ← tools.functionSignatureDefaultValue input
    return some (name ++ '=' :: text)

/-- The parameter list, required parameters first. -/
def signatureParameters (tools : CodeTools V D) (inputs : List (TransformationInput V)) :
    Except CodeError PyStr := do
  let required ← (inputs.filter fun input => input.type = .required).mapM (signatureParameter tools)
  let optional ← (inputs.filter fun input => input.type = .optional).mapM (signatureParameter tools)
  return if inputs = [] then [] else
    "*, ".toList ++ ", ".toList.intercalate ((required ++ optional).filterMap id)

/-- The timestamps in the component info according to the state. -/
def timestampEntries (tools : CodeTools V D)
    (component : TransformationRevision V (WorkflowWiring D)) : Except CodeError PyStr := do
  let entry (name : String) (timestamp : Option Timestamp) : Except CodeError PyStr :=
    match timestamp with
    | none => .error .typeError
    | some t => .ok (("\n    \"" ++ name ++ "\": ").toList ++ quoted (tools.isoformat t) ++ [','])
  match component.state with
  | .draft => return []
  | .released => entry "released_timestamp" component.releasedTimestamp
  | .disabled =>
    let released ← entry "released_timestamp" component.releasedTimestamp
    let disabled ← entry "disabled_timestamp" component.disabledTimestamp
    return released ++ disabled

/-- The generated part between the marker lines, before formatting. -/
def functionDefinition (tools : CodeTools V D)
    (component : TransformationRevision V (WorkflowWiring D)) (isCoroutine : Bool) :
    Except CodeError PyStr := do
  let parameters ← signatureParameters tools component.ioInterface.inputs
  let inputs ← (component.ioInterface.inputs.filterMap fun input =>
    input.name.map fun name => (name, input)).mapM fun (name, input) => do
      let defaultValue ← defaultValuePart tools input
      return componentInfoEntry name input.dataType defaultValue
  let outputs := component.ioInterface.outputs.filterMap fun output =>
    output.name.map fun name => componentInfoEntry name output.dataType []
  let timestamps ← timestampEntries tools component
  return ("\n# These lines may be overwritten if component details or inputs/outputs change.\n" ++
      "COMPONENT_INFO = \x7b\n    \"inputs\": ").toList ++
    componentInfoDict (component.ioInterface.inputs ≠ []) inputs ++
    ",\n    \"outputs\": ".toList ++
    componentInfoDict (component.ioInterface.outputs ≠ []) outputs ++
    ",\n    \"name\": ".toList ++ quoted component.name ++
    ",\n    \"category\": ".toList ++ quoted component.category ++
    ",\n    \"description\": ".toList ++ quoted component.description ++ [','] ++
    (if 77 < component.description.length then "  # noqa: E501".toList else []) ++
    "\n    \"version_tag\": ".toList ++ quoted component.versionTag ++
    ",\n    \"id\": ".toList ++ quoted (tools.uuidStr component.id) ++
    ",\n    \"revision_group_id\": ".toList ++ quoted (tools.uuidStr component.revisionGroupId) ++
    ",\n    \"state\": ".toList ++ quoted component.state.value ++ [','] ++ timestamps ++
    ("\n\x7d\n\nfrom hdutils import parse_default_value  # noqa: E402, F401\n\n" ++
      (if isCoroutine then "async def" else "def") ++ " main(").toList ++ parameters ++
    "):\n    # entrypoint function for this component\n".toList

/-- `format_code_with_black`: the result ends with a newline. -/
def formatCodeWithBlack (tools : CodeTools V D) (code : PyStr) : Except CodeError PyStr :=
  match tools.black code with
  | none => .error .codeParsing
  | some formatted =>
    .ok (if formatted = [] ∨ formatted.getLast? = some '\n' then formatted else formatted ++ ['\n'])

/-- Python's `removesuffix`. -/
def removeSuffix (s final : PyStr) : PyStr :=
  if final.isSuffixOf s then s.take (s.length - final.length) else s

/-- `format_function_header`: a body makes the header complete code while it is formatted. -/
def formatFunctionHeader (tools : CodeTools V D) (header : PyStr) : Except CodeError PyStr := do
  let formatted ← formatCodeWithBlack tools (header ++ functionBodyTemplate)
  return removeSuffix formatted functionBodyTemplate

/-- `generate_function_header` -/
def generateFunctionHeader (tools : CodeTools V D)
    (component : TransformationRevision V (WorkflowWiring D)) (isCoroutine : Bool) :
    Except CodeError PyStr := do
  let definition ← functionDefinition tools component isCoroutine
  formatFunctionHeader tools (doNotEditBelow ++ definition ++ doNotEditAbove)

/-! ## Updating code -/

/-- The lines of a text. -/
def codeLines : PyStr → List PyStr
  | [] => [[]]
  | c :: rest =>
    if c = '\n' then [] :: codeLines rest
    else
      match codeLines rest with
      | [] => [[c]]
      | line :: lines => (c :: line) :: lines

/-- Whether the last definition of the entrypoint is a coroutine. -/
def definesCoroutine (functionDefinition : PyStr) : Bool :=
  (codeLines functionDefinition).foldl
    (fun isCoroutine line =>
      if "async def main(".toList.isPrefixOf line then true
      else if "def main(".toList.isPrefixOf line then false
      else isCoroutine)
    false

/-- `update_code` on the code of a component. -/
def updateCode (tools : CodeTools V D) (component : TransformationRevision V (WorkflowWiring D))
    (existingCode : PyStr) : Except CodeError PyStr := do
  if existingCode = [] then
    let header ← generateFunctionHeader tools component false
    return importsTemplate ++ "# %%\n".toList ++ header ++ functionBodyTemplate ++
      "\n\n# %%\n".toList
  else
    let header ← generateFunctionHeader tools component false
    match splitFirst doNotEditBelow existingCode with
    -- No function definition is found, so a further one is appended.
    | none => return existingCode ++ "\n\n".toList ++ header ++ functionBodyTemplate
    | some (start, remaining) =>
      match splitFirst doNotEditAbove remaining with
      -- The end of the definition is not found, so all code from its start on is replaced.
      | none => return start ++ header ++ functionBodyTemplate
      | some (oldDefinition, rest) =>
        let header ← generateFunctionHeader tools component (definesCoroutine oldDefinition)
        return start ++ header ++ rest

/-! ## Expanding code -/

/-- Whitespace as `str.strip` removes it. -/
def isPySpace [UnicodeData] (c : Char) : Bool :=
  c.toNat ∈ [9, 10, 11, 12, 13, 28, 29, 30, 31, 32] ∨ (128 ≤ c.toNat ∧ UnicodeData.isSpace c)

/-- `str.strip` -/
def pyStrip [UnicodeData] (s : PyStr) : PyStr :=
  (((s.dropWhile isPySpace).reverse).dropWhile isPySpace).reverse

/-- `add_documentation_as_module_doc_string` -/
def addDocumentationAsModuleDocString [UnicodeData] (code : PyStr)
    (component : TransformationRevision V (WorkflowWiring D)) : PyStr :=
  let documentation := pyStrip component.documentation
  let quotes := ['"', '"', '"']
  if quotes.isPrefixOf code ∨ ('r' :: quotes).isPrefixOf code ∨ documentation = [] then code
  else quotes ++ "Documentation for ".toList ++ component.name ++ ['\n', '\n'] ++ documentation ++
    ['\n'] ++ quotes ++ ['\n', '\n'] ++ code

/-- Set a module level variable to a wiring; code that libcst rejects stays as it is. -/
def addWiringDictionary (tools : CodeTools V D) (variableName : String)
    (wiring : Option (WorkflowWiring D)) (code : PyStr) : PyStr :=
  (tools.updateModuleLevelVariable code variableName.toList wiring).getD code

/-- `expand_code` on the code of a component. -/
def expandCode [UnicodeData] (tools : CodeTools V D)
    (component : TransformationRevision V (WorkflowWiring D)) (existingCode : PyStr) :
    Except CodeError PyStr := do
  let code ← if existingCode = [] then updateCode tools component [] else .ok existingCode
  let documented := addDocumentationAsModuleDocString code component
  let tested := addWiringDictionary tools "TEST_WIRING_FROM_PY_FILE_IMPORT"
    (some component.testWiring) documented
  let expanded := addWiringDictionary tools "RELEASE_WIRING" component.releaseWiring tested
  match formatCodeWithBlack tools expanded with
  | .ok formatted => return formatted
  | .error _ => return expanded

end Code

end HetidaDesigner
