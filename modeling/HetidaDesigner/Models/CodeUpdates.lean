import HetidaDesigner.Models.CodeMarkers

/-!
# Updating code again

An update of component code generates the header anew. Where the code has no header, or none
with an end, one is put in, and the next update finds that one. So a second update changes
nothing. The entrypoint stays a coroutine, which is decided by the lines that define it.
-/

namespace HetidaDesigner

open Checks SplitFirst

/-! ## Lines -/

/-- Lines are never missing. -/
theorem codeLines_ne_nil (text : PyStr) : codeLines text ≠ [] := by
  cases text with
  | nil => exact List.cons_ne_nil _ _
  | cons c rest =>
    rw [codeLines]
    split
    · exact List.cons_ne_nil _ _
    · split <;> exact List.cons_ne_nil _ _

/-- A newline separates the lines before it from those behind it. -/
theorem codeLines_append_newline (before after : PyStr) :
    codeLines (before ++ '\n' :: after) = codeLines before ++ codeLines after := by
  induction before with
  | nil => simp [codeLines]
  | cons c rest ih =>
    rw [List.cons_append, codeLines, codeLines, ih]
    split
    · rfl
    · cases hlines : codeLines rest with
      | nil => exact absurd hlines (codeLines_ne_nil rest)
      | cons line lines => rfl

/-- Text without a newline is one line. -/
theorem codeLines_of_newline_notMem {text : PyStr} (h : '\n' ∉ text) : codeLines text = [text] := by
  induction text with
  | nil => rfl
  | cons c rest ih =>
    have hc : c ≠ '\n' := fun heq => h (heq ▸ List.mem_cons_self)
    have hrest : '\n' ∉ rest := fun hmem => h (List.mem_cons_of_mem _ hmem)
    rw [codeLines, if_neg hc, ih hrest]

/-- A line that defines the entrypoint as a coroutine. -/
def asyncMainLine (line : PyStr) : Bool := "async def main(".toList.isPrefixOf line

/-- A line that defines the entrypoint as a plain function. -/
def plainMainLine (line : PyStr) : Bool := "def main(".toList.isPrefixOf line

/-- The last line that defines the entrypoint defines it as a coroutine. -/
def MainIsCoroutine (text : PyStr) : Prop :=
  ∃ before line after, codeLines text = before ++ line :: after ∧ asyncMainLine line = true ∧
    ∀ other ∈ after, plainMainLine other = false

/-- The last defining line decides. -/
theorem foldl_mainLines (lines : List PyStr) :
    lines.foldl (fun isCoroutine line =>
        if asyncMainLine line then true else if plainMainLine line then false else isCoroutine)
      false = true ↔
      ∃ before line after, lines = before ++ line :: after ∧ asyncMainLine line = true ∧
        ∀ other ∈ after, plainMainLine other = false := by
  induction lines using List.reverseRecOn with
  | nil => simp
  | append_singleton lines last ih =>
    rw [List.foldl_append, List.foldl_cons, List.foldl_nil]
    constructor
    · intro h
      split at h
      · rename_i hasync
        exact ⟨lines, last, [], rfl, hasync, fun other hother => absurd hother List.not_mem_nil⟩
      · split at h
        · cases h
        · rename_i hplain
          obtain ⟨before, line, after, rfl, hline, hafter⟩ := ih.mp h
          refine ⟨before, line, after ++ [last], by simp, hline, fun other hother => ?_⟩
          rcases List.mem_append.mp hother with hmem | hmem
          · exact hafter other hmem
          · rw [List.mem_singleton.mp hmem]
            exact Bool.eq_false_iff.mpr hplain
    · rintro ⟨before, line, after, heq, hline, hafter⟩
      rcases List.eq_nil_or_concat after with rfl | ⟨init, final, rfl⟩
      · obtain ⟨-, hlast⟩ := List.append_inj' heq rfl
        rw [(List.cons.inj hlast).1, if_pos hline]
      · have heq' : lines ++ [last] = (before ++ line :: init) ++ [final] := by
          rw [heq, List.concat_eq_append]
          simp
        obtain ⟨hlines, hlast⟩ := List.append_inj' heq' rfl
        have hfinal : plainMainLine last = false := by
          rw [(List.cons.inj hlast).1]
          exact hafter final (by simp)
        have hinit := ih.mpr ⟨before, line, init, hlines, hline, fun other hother =>
          hafter other (by simp [hother])⟩
        rw [hinit, hfinal]
        split <;> rfl

/-- What the update finds out about the entrypoint. -/
theorem definesCoroutine_eq_true_iff (text : PyStr) :
    definesCoroutine text = true ↔ MainIsCoroutine text :=
  foldl_mainLines (codeLines text)

/-- A defining line with no other one behind it decides. -/
theorem definesCoroutine_of_last {text before line after : PyStr} {isCoroutine : Bool}
    (htext : text = before ++ '\n' :: (line ++ '\n' :: after)) (hnewline : '\n' ∉ line)
    (hasync : asyncMainLine line = isCoroutine) (hplain : plainMainLine line = !isCoroutine)
    (hafter : ∀ other ∈ codeLines after, asyncMainLine other = false ∧ plainMainLine other = false) :
    definesCoroutine text = isCoroutine := by
  have hlines : codeLines text = codeLines before ++ line :: codeLines after := by
    rw [htext, codeLines_append_newline, codeLines_append_newline,
      codeLines_of_newline_notMem hnewline]
    rfl
  have hkeep (lines : List PyStr) (b : Bool)
      (h : ∀ other ∈ lines, asyncMainLine other = false ∧ plainMainLine other = false) :
      lines.foldl (fun isCoroutine line => if asyncMainLine line then true
        else if plainMainLine line then false else isCoroutine) b = b := by
    induction lines with
    | nil => rfl
    | cons other rest ih =>
      obtain ⟨h1, h2⟩ := h other List.mem_cons_self
      rw [List.foldl_cons, h1, h2]
      exact ih fun x hx => h x (List.mem_cons_of_mem _ hx)
  change (codeLines text).foldl (fun isCoroutine line => if asyncMainLine line then true
        else if plainMainLine line then false else isCoroutine) false = isCoroutine
  rw [hlines, List.foldl_append, List.foldl_cons, hkeep _ _ hafter, hasync, hplain]
  cases isCoroutine <;> rfl

/-! ## The header -/

section Header

variable {V D : Type} {tools : CodeTools V D}
  {component : TransformationRevision V (WorkflowWiring D)}

/-- The header that is generated for a component: it starts with the one marker and ends with the
other, which occurs once, and the formatter keeps how the entrypoint is defined. -/
structure GeneratesHeaders (tools : CodeTools V D)
    (component : TransformationRevision V (WorkflowWiring D)) : Prop where
  /-- the names of ios are identifiers -/
  names : component.ioInterface.NamesIdentifiers
  /-- `repr` escapes newlines -/
  defaults : ∀ input ∈ component.ioInterface.inputs, ∀ text,
    tools.functionSignatureDefaultValue input = .ok text → '\n' ∉ text
  /-- the header is the formatted definition between the marker lines -/
  header : ∀ isCoroutine, ∃ definition middle,
    functionDefinition tools component isCoroutine = .ok definition ∧
    generateFunctionHeader tools component isCoroutine =
      .ok (doNotEditBelow ++ middle ++ doNotEditAbove) ∧
    OccursOnce doNotEditAbove (doNotEditBelow ++ middle ++ doNotEditAbove) ∧
    (MainIsCoroutine middle ↔ MainIsCoroutine definition)

/-- The header is what the formatter writes in front of the body. -/
theorem generateFunctionHeader_of_black {isCoroutine : Bool} {definition header : PyStr}
    (hdefinition : functionDefinition tools component isCoroutine = .ok definition)
    (hblack : tools.black (doNotEditBelow ++ definition ++ doNotEditAbove ++ functionBodyTemplate) =
      some (header ++ functionBodyTemplate)) :
    generateFunctionHeader tools component isCoroutine = .ok header := by
  rw [generateFunctionHeader, hdefinition]
  change formatFunctionHeader tools (doNotEditBelow ++ definition ++ doNotEditAbove) = _
  rw [formatFunctionHeader, formatCodeWithBlack_of_body hblack]
  change Except.ok (removeSuffix (header ++ functionBodyTemplate) functionBodyTemplate) = _
  rw [removeSuffix_append]

/-- A parameter of the entrypoint is written on one line. -/
theorem newline_notMem_signatureParameter {input : TransformationInput V}
    (hnames : ∀ name ∈ input.name, name.all identifierChar)
    (hdefaults : ∀ text, tools.functionSignatureDefaultValue input = .ok text → '\n' ∉ text)
    {parameter : PyStr} (h : signatureParameter tools input = .ok (some parameter)) :
    '\n' ∉ parameter := by
  have hname {name : PyStr} (hsome : input.name = some name) : '\n' ∉ name := by
    intro hmem
    have hall := hnames name hsome
    rw [List.all_eq_true] at hall
    exact absurd (hall '\n' hmem) (by decide)
  unfold signatureParameter at h
  split at h
  · cases h
  · rename_i name hsome _
    cases h
    exact hname hsome
  · rename_i name hsome _
    obtain ⟨text, htext, h⟩ := bind_eq_ok.mp h
    obtain rfl := Option.some.inj (return_eq_ok.mp h)
    simp only [List.mem_append, List.mem_cons, not_or]
    exact ⟨hname hsome, by decide, hdefaults text htext⟩

/-- Texts on one line are joined to one line. -/
theorem newline_notMem_intercalate {sep : PyStr} (hsep : '\n' ∉ sep) {texts : List PyStr}
    (htexts : ∀ text ∈ texts, '\n' ∉ text) : '\n' ∉ sep.intercalate texts := by
  induction texts with
  | nil => simp
  | cons text rest ih =>
    have hrest := ih fun other hother => htexts other (List.mem_cons_of_mem _ hother)
    cases rest with
    | nil => simpa using htexts text List.mem_cons_self
    | cons next rest =>
      rw [List.intercalate_cons_cons, List.mem_append, List.mem_append, not_or, not_or]
      exact ⟨⟨htexts text List.mem_cons_self, hsep⟩, hrest⟩

/-- The parameters of the entrypoint are written on one line. -/
theorem GeneratesHeaders.newline_notMem (h : GeneratesHeaders tools component)
    {parameters : PyStr}
    (hparameters : signatureParameters tools component.ioInterface.inputs = .ok parameters) :
    '\n' ∉ parameters := by
  unfold signatureParameters at hparameters
  obtain ⟨required, hrequired, hparameters⟩ := bind_eq_ok.mp hparameters
  obtain ⟨optional, hoptional, hparameters⟩ := bind_eq_ok.mp hparameters
  have hpart {p : TransformationInput V → Bool} {results : List (Option PyStr)}
      (hresults : (component.ioInterface.inputs.filter p).mapM (signatureParameter tools) =
        .ok results) : ∀ parameter, some parameter ∈ results → '\n' ∉ parameter := by
    intro parameter hmem
    obtain ⟨input, hinput, hresult⟩ := exists_argument_of_mapM hresults hmem
    have hinput' := (List.mem_filter.mp hinput).1
    exact newline_notMem_signatureParameter (h.names.1 input hinput') (h.defaults input hinput')
      hresult
  obtain rfl := return_eq_ok.mp hparameters
  split
  · exact List.not_mem_nil
  · intro hmem
    rcases List.mem_append.mp hmem with hmem | hmem
    · exact absurd hmem (by decide)
    · refine newline_notMem_intercalate (by decide) (fun parameter hparameter => ?_) hmem
      obtain ⟨found, hfound, hid⟩ := List.mem_filterMap.mp hparameter
      obtain rfl : found = some parameter := hid
      rcases List.mem_append.mp hfound with hfound | hfound
      · exact hpart hrequired parameter hfound
      · exact hpart hoptional parameter hfound

/-- How the line that defines the entrypoint begins. -/
def mainDeclaration (isCoroutine : Bool) : PyStr :=
  if isCoroutine then "async def main(".toList else "def main(".toList

/-- A text literal without a character. -/
theorem notMem_toList {s : String} {chars : List Char} {c : Char} (hs : s = String.ofList chars)
    (hc : c ∉ chars) : c ∉ s.toList := by
  rwa [hs, String.toList_ofList]

/-- A text literal in two parts around a newline. -/
theorem toList_newline {s t u : String} {before after : List Char}
    (hs : s = String.ofList (before ++ '\n' :: after)) (ht : t = String.ofList before)
    (hu : u = String.ofList after) : s.toList = t.toList ++ '\n' :: u.toList := by
  rw [hs, ht, hu, String.toList_ofList, String.toList_ofList, String.toList_ofList]

/-- What stands in front of the entrypoint ends with an empty line. -/
theorem toList_mainDeclaration (isCoroutine : Bool) :
    ("\n\x7d\n\nfrom hdutils import parse_default_value  # noqa: E402, F401\n\n" ++
        (if isCoroutine then "async def" else "def") ++ " main(").toList =
      "\n\x7d\n\nfrom hdutils import parse_default_value  # noqa: E402, F401\n".toList ++
        '\n' :: mainDeclaration isCoroutine := by
  have hinfo : "\n\x7d\n\nfrom hdutils import parse_default_value  # noqa: E402, F401\n\n".toList =
      "\n\x7d\n\nfrom hdutils import parse_default_value  # noqa: E402, F401\n".toList ++
        '\n' :: "".toList := toList_newline rfl rfl rfl
  have hmain : (if isCoroutine then "async def" else "def").toList ++ " main(".toList =
      mainDeclaration isCoroutine := by
    cases isCoroutine <;> decide
  rw [String.toList_append, String.toList_append, hinfo, ← hmain]
  simp only [List.append_assoc, List.cons_append, String.toList_empty, List.nil_append]

/-- The entrypoint is defined on the last line but one. -/
theorem GeneratesHeaders.exists_definition (h : GeneratesHeaders tools component)
    {isCoroutine : Bool} {definition : PyStr}
    (hdefinition : functionDefinition tools component isCoroutine = .ok definition) :
    ∃ before parameters, '\n' ∉ parameters ∧ definition =
      before ++ '\n' :: ((mainDeclaration isCoroutine ++ parameters ++ "):".toList) ++
        '\n' :: "    # entrypoint function for this component\n".toList) := by
  unfold functionDefinition at hdefinition
  obtain ⟨parameters, hparameters, hdefinition⟩ := bind_eq_ok.mp hdefinition
  obtain ⟨inputs, -, hdefinition⟩ := bind_eq_ok.mp hdefinition
  obtain ⟨timestamps, -, hdefinition⟩ := bind_eq_ok.mp hdefinition
  obtain rfl := return_eq_ok.mp hdefinition
  have hsplit (info lines declaration parameters close comment : PyStr) :
      info ++ (lines ++ '\n' :: declaration) ++ parameters ++ (close ++ '\n' :: comment) =
        info ++ lines ++ '\n' :: (declaration ++ parameters ++ close ++ '\n' :: comment) := by
    simp
  have hcomment : "):\n    # entrypoint function for this component\n".toList =
      "):".toList ++ '\n' :: "    # entrypoint function for this component\n".toList :=
    toList_newline rfl rfl rfl
  rw [toList_mainDeclaration, hcomment]
  exact ⟨_, parameters, h.newline_notMem hparameters, hsplit _ _ _ _ _ _⟩

/-- The last line but one decides on the entrypoint. -/
theorem definesCoroutine_mainDeclaration (isCoroutine : Bool) (before : PyStr) {parameters : PyStr}
    (h : '\n' ∉ parameters) :
    definesCoroutine (before ++ '\n' :: ((mainDeclaration isCoroutine ++ parameters ++
      "):".toList) ++ '\n' :: "    # entrypoint function for this component\n".toList)) =
      isCoroutine := by
  refine definesCoroutine_of_last rfl ?_ ?_ ?_ (by decide)
  · simp only [List.mem_append, not_or]
    refine ⟨⟨?_, h⟩, by decide⟩
    cases isCoroutine <;> decide
  · rw [asyncMainLine, List.append_assoc]
    cases isCoroutine
    · rfl
    · exact List.isPrefixOf_iff_prefix.mpr (List.prefix_append _ _)
  · rw [plainMainLine, List.append_assoc]
    cases isCoroutine
    · exact List.isPrefixOf_iff_prefix.mpr (List.prefix_append _ _)
    · rfl

/-- The generated definition defines the entrypoint as it is asked to. -/
theorem GeneratesHeaders.definesCoroutine_definition (h : GeneratesHeaders tools component)
    {isCoroutine : Bool} {definition : PyStr}
    (hdefinition : functionDefinition tools component isCoroutine = .ok definition) :
    definesCoroutine definition = isCoroutine := by
  obtain ⟨before, parameters, hnewline, rfl⟩ := h.exists_definition hdefinition
  exact definesCoroutine_mainDeclaration isCoroutine before hnewline

/-- The generated header: where its markers are and how it defines the entrypoint. -/
theorem GeneratesHeaders.exists_header (h : GeneratesHeaders tools component)
    (isCoroutine : Bool) :
    ∃ middle, generateFunctionHeader tools component isCoroutine =
        .ok (doNotEditBelow ++ middle ++ doNotEditAbove) ∧
      splitFirst doNotEditAbove (middle ++ doNotEditAbove) = some (middle, []) ∧
      definesCoroutine middle = isCoroutine := by
  obtain ⟨definition, middle, hdefinition, hheader, habove, hmain⟩ := h.header isCoroutine
  refine ⟨middle, hheader, ?_, ?_⟩
  · obtain ⟨⟨first, rest⟩, hsplit⟩ := @exists_splitFirst _ _ doNotEditAbove
      (middle ++ doNotEditAbove) middle [] (by simp)
    -- a marker inside would be a second one in the whole header
    obtain ⟨only, -, hunique⟩ := habove
    have htext := splitFirst_eq_some hsplit
    have hfirst : doNotEditBelow ++ first = doNotEditBelow ++ middle :=
      (hunique _ ⟨rest, by rw [List.append_assoc, htext]; simp⟩).trans
        (hunique _ ⟨[], by simp⟩).symm
    obtain rfl := List.append_cancel_left hfirst
    have hrest : rest = [] := by
      have hlength := congrArg List.length htext
      simp only [List.length_append] at hlength
      exact List.eq_nil_of_length_eq_zero (by omega)
    rwa [hrest] at hsplit
  · have hsame : definesCoroutine middle = definesCoroutine definition := by
      rw [Bool.eq_iff_iff, definesCoroutine_eq_true_iff, definesCoroutine_eq_true_iff, hmain]
    rw [hsame, h.definesCoroutine_definition hdefinition]

/-! ## Updating twice -/

/-- The first marker and the first end marker behind it divide code into three parts. -/
def DividedByMarkers (text start definition rest : PyStr) : Prop :=
  ∃ remaining, splitFirst doNotEditBelow text = some (start, remaining) ∧
    splitFirst doNotEditAbove remaining = some (definition, rest)

/-- A header behind code without the first marker divides the code. -/
theorem dividedByMarkers_header {start middle : PyStr}
    (hstart : splitFirst doNotEditBelow (start ++ doNotEditBelow) = some (start, []))
    (hmiddle : splitFirst doNotEditAbove (middle ++ doNotEditAbove) = some (middle, []))
    (rest : PyStr) :
    DividedByMarkers (start ++ (doNotEditBelow ++ middle ++ doNotEditAbove) ++ rest) start middle
      rest := by
  have htext : start ++ (doNotEditBelow ++ middle ++ doNotEditAbove) ++ rest =
      start ++ doNotEditBelow ++ (middle ++ doNotEditAbove ++ rest) := by
    simp only [List.append_assoc]
  rw [htext]
  exact ⟨_, splitFirst_append hstart _, splitFirst_append hmiddle rest⟩

/-- The part before the first marker is the same in code that goes on differently. -/
theorem splitFirst_below_of_eq_some {text start remaining : PyStr}
    (h : splitFirst doNotEditBelow text = some (start, remaining)) :
    splitFirst doNotEditBelow (start ++ doNotEditBelow) = some (start, []) := by
  have hexchange := splitFirst_exchange (splitFirst_eq_some h ▸ h) []
  rwa [List.append_nil] at hexchange

/-- The first marker can follow a line break behind code without it. -/
theorem splitFirst_below_of_eq_none {text lines : PyStr}
    (h : splitFirst doNotEditBelow text = none)
    (hlines : splitFirst doNotEditBelow (lines ++ doNotEditBelow) = some (lines, [])) :
    splitFirst doNotEditBelow (text ++ '\n' :: lines ++ doNotEditBelow) =
      some (text ++ '\n' :: lines, []) := by
  have hsplit := splitFirst_append_cons h (by decide : '\n' ∉ doNotEditBelow)
    (lines ++ doNotEditBelow)
  rw [hlines] at hsplit
  simpa using hsplit

/-- The update of divided code exchanges the header. -/
theorem GeneratesHeaders.updateCode_of_divided (h : GeneratesHeaders tools component)
    {text start definition rest header : PyStr}
    (htext : DividedByMarkers text start definition rest)
    (hheader : generateFunctionHeader tools component (definesCoroutine definition) = .ok header) :
    updateCode tools component text = .ok (start ++ header ++ rest) := by
  obtain ⟨remaining, hbelow, habove⟩ := htext
  obtain ⟨plain, hplain, -, -⟩ := h.exists_header false
  have hne : text ≠ [] := by
    rintro rfl
    cases hbelow
  rw [updateCode, if_neg hne, hplain]
  simp only [hbelow, habove, bind, Except.bind, hheader, pure, Except.pure]

/-- Code with a generated header is not changed by an update. -/
theorem GeneratesHeaders.updateCode_eq_self (h : GeneratesHeaders tools component)
    {start middle rest : PyStr} {isCoroutine : Bool}
    (hstart : splitFirst doNotEditBelow (start ++ doNotEditBelow) = some (start, []))
    (hheader : generateFunctionHeader tools component isCoroutine =
      .ok (doNotEditBelow ++ middle ++ doNotEditAbove))
    (hmiddle : splitFirst doNotEditAbove (middle ++ doNotEditAbove) = some (middle, []))
    (hmain : definesCoroutine middle = isCoroutine) :
    updateCode tools component (start ++ (doNotEditBelow ++ middle ++ doNotEditAbove) ++ rest) =
      .ok (start ++ (doNotEditBelow ++ middle ++ doNotEditAbove) ++ rest) := by
  refine h.updateCode_of_divided (dividedByMarkers_header hstart hmiddle rest) ?_
  rw [hmain, hheader]

/-- The template for imports has no marker. -/
theorem splitFirst_importsTemplate :
    splitFirst doNotEditBelow (importsTemplate ++ "# %%\n".toList ++ doNotEditBelow) =
      some (importsTemplate ++ "# %%\n".toList, []) := by
  have hcell : "# %%\n".toList = "# %%".toList ++ '\n' :: "".toList := toList_newline rfl rfl rfl
  have hmissing : '*' ∉ importsTemplate ++ "# %%".toList := by
    unfold importsTemplate
    simp only [String.toList_append, List.mem_append, not_or]
    refine ⟨⟨⟨⟨?_, ?_⟩, ?_⟩, ?_⟩, ?_⟩ <;> exact notMem_toList rfl (by decide)
  have hbelow : '*' ∈ doNotEditBelow := by decide
  have hnil : splitFirst doNotEditBelow ([] ++ doNotEditBelow) = some ([], []) := by
    have hprefix := splitFirst_at_start doNotEditBelow []
    rwa [List.append_nil] at hprefix
  have hsplit := splitFirst_below_of_eq_none (splitFirst_eq_none hbelow hmissing) hnil
  rw [hcell, ← List.append_assoc]
  exact hsplit

/-- The update of any code puts a header into it, behind a part without the first marker. -/
theorem GeneratesHeaders.exists_updateCode (h : GeneratesHeaders tools component) (text : PyStr) :
    ∃ start middle rest isCoroutine,
      updateCode tools component text =
        .ok (start ++ (doNotEditBelow ++ middle ++ doNotEditAbove) ++ rest) ∧
      splitFirst doNotEditBelow (start ++ doNotEditBelow) = some (start, []) ∧
      generateFunctionHeader tools component isCoroutine =
        .ok (doNotEditBelow ++ middle ++ doNotEditAbove) ∧
      splitFirst doNotEditAbove (middle ++ doNotEditAbove) = some (middle, []) ∧
      definesCoroutine middle = isCoroutine := by
  obtain ⟨middle, hheader, hmiddle, hmain⟩ := h.exists_header false
  by_cases hempty : text = []
  · refine ⟨importsTemplate ++ "# %%\n".toList, middle,
      functionBodyTemplate ++ "\n\n# %%\n".toList, false, ?_, splitFirst_importsTemplate, hheader,
      hmiddle, hmain⟩
    rw [updateCode, if_pos hempty, hheader]
    simp only [bind, Except.bind, pure, Except.pure, List.append_assoc]
  · cases hbelow : splitFirst doNotEditBelow text with
    | none =>
      have hstart := @splitFirst_below_of_eq_none text "\n".toList hbelow (by decide +kernel)
      refine ⟨text ++ "\n\n".toList, middle, functionBodyTemplate, false, ?_, hstart, hheader,
        hmiddle, hmain⟩
      rw [updateCode, if_neg hempty, hheader]
      simp only [bind, Except.bind, pure, Except.pure, hbelow]
    | some parts =>
      obtain ⟨start, remaining⟩ := parts
      have hstart := splitFirst_below_of_eq_some hbelow
      cases habove : splitFirst doNotEditAbove remaining with
      | none =>
        refine ⟨start, middle, functionBodyTemplate, false, ?_, hstart, hheader, hmiddle, hmain⟩
        rw [updateCode, if_neg hempty, hheader]
        simp only [bind, Except.bind, pure, Except.pure, hbelow, habove]
      | some parts =>
        obtain ⟨definition, rest⟩ := parts
        obtain ⟨middle, hheader, hmiddle, hmain⟩ := h.exists_header (definesCoroutine definition)
        exact ⟨start, middle, rest, _,
          h.updateCode_of_divided ⟨remaining, hbelow, habove⟩ hheader, hstart, hheader, hmiddle,
          hmain⟩

/-- An update keeps what stands around the header and whether the entrypoint is a coroutine, and
a further update changes nothing. -/
theorem updateCode_idempotent (h : GeneratesHeaders tools component) (text : PyStr) :
    ∃ text', updateCode tools component text = .ok text' ∧
      updateCode tools component text' = .ok text' ∧
      ∀ start definition rest, DividedByMarkers text start definition rest →
        ∃ definition', DividedByMarkers text' start definition' rest ∧
          (MainIsCoroutine definition' ↔ MainIsCoroutine definition) := by
  obtain ⟨start, middle, rest, isCoroutine, hupdate, hstart, hheader, hmiddle, hmain⟩ :=
    h.exists_updateCode text
  refine ⟨_, hupdate, h.updateCode_eq_self hstart hheader hmiddle hmain, ?_⟩
  intro start' definition rest' hdivided
  obtain ⟨middle', hheader', hmiddle', hmain'⟩ := h.exists_header (definesCoroutine definition)
  have hupdate' := h.updateCode_of_divided hdivided hheader'
  obtain ⟨remaining, hbelow, -⟩ := hdivided
  rw [Except.ok.inj (hupdate.symm.trans hupdate')]
  refine ⟨middle',
    dividedByMarkers_header (splitFirst_below_of_eq_some hbelow) hmiddle' rest', ?_⟩
  rw [← definesCoroutine_eq_true_iff, ← definesCoroutine_eq_true_iff, hmain']

end Header

/-! ## A component with two inputs -/

/-- A required and an optional input. -/
def scalingInputs : List (TransformationInput ℤ) := [
  { id := 2, name := some "signal".toList, dataType := .series, type := .required, value := none
    value_set_only_for_optional_input := InputType.required_without_value },
  { id := 3, name := some "factor".toList, dataType := .float, type := .optional, value := some 1
    value_set_only_for_optional_input := fun h => absurd h (by decide) }]

/-- A drafted component with these inputs and an output. -/
def scalingComponent : TransformationRevision ℤ (WorkflowWiring Unit) where
  id := 1
  revisionGroupId := 1
  name := "Scaling".toList
  description := []
  category := "Tests".toList
  versionTag := "1.0".toList
  disabledTimestamp := none
  releasedTimestamp := none
  state := .draft
  type := .component
  ioInterface := ⟨scalingInputs, [⟨4, some "result".toList, .series⟩]⟩
  documentation := []
  content := .code []
  testWiring := ⟨[], [], []⟩
  releaseWiring := none

/-- The id of the component as text. -/
def scalingId : PyStr := "00000000-0000-4000-8000-000000000001".toList

/-- What the header says about the inputs. -/
def scalingInputEntries : List PyStr := [
  componentInfoEntry "signal".toList .series [],
  componentInfoEntry "factor".toList .float (", \"default_value\": ".toList ++ "1.0".toList)]

/-- What the header says about the output. -/
def scalingOutputEntries : List PyStr := [componentInfoEntry "result".toList .series []]

/-- The parameters of the entrypoint. -/
def scalingParameters : PyStr := "*, signal, factor=1.0".toList

/-- What the header says about the component. -/
def scalingInfo : PyStr :=
  ("\n# These lines may be overwritten if component details or inputs/outputs change.\n" ++
      "COMPONENT_INFO = \x7b\n    \"inputs\": ").toList ++ componentInfoDict true scalingInputEntries ++
    ",\n    \"outputs\": ".toList ++ componentInfoDict true scalingOutputEntries ++
    ",\n    \"name\": ".toList ++ quoted scalingComponent.name ++
    ",\n    \"category\": ".toList ++ quoted scalingComponent.category ++
    ",\n    \"description\": ".toList ++ quoted scalingComponent.description ++ [','] ++
    "\n    \"version_tag\": ".toList ++ quoted scalingComponent.versionTag ++
    ",\n    \"id\": ".toList ++ quoted scalingId ++
    ",\n    \"revision_group_id\": ".toList ++ quoted scalingId ++
    ",\n    \"state\": ".toList ++ quoted scalingComponent.state.value ++ [','] ++
    "\n\x7d\n\nfrom hdutils import parse_default_value  # noqa: E402, F401\n".toList

/-- Its header between the marker lines, with lines in front of the entrypoint. -/
def scalingHeader (lines : PyStr) (isCoroutine : Bool) : PyStr :=
  scalingInfo ++ lines ++ '\n' :: ((mainDeclaration isCoroutine ++ scalingParameters ++ "):".toList) ++
    '\n' :: "    # entrypoint function for this component\n".toList)

/-- Its header in front of a body. -/
def scalingCode (lines : PyStr) (isCoroutine : Bool) : PyStr :=
  doNotEditBelow ++ scalingHeader lines isCoroutine ++ doNotEditAbove ++ functionBodyTemplate

/-- Tools with the formatter on the headers of the component: an empty line is missing in front
of the entrypoint. -/
def scalingTools : CodeTools ℤ Unit where
  parse := fun _ => none
  numerals := ⟨fun _ => none, fun _ => false⟩
  black := fun code =>
    if code = scalingCode [] true then some (scalingCode ['\n'] true)
    else if code = scalingCode [] false then some (scalingCode ['\n'] false)
    else some code
  updateModuleLevelVariable := fun _ _ _ => none
  componentInfoDefaultValue := fun _ => .ok "1.0".toList
  functionSignatureDefaultValue := fun _ => .ok "1.0".toList
  isoformat := fun _ => []
  uuidStr := fun _ => scalingId

/-- What is generated for the component before it is formatted. -/
theorem functionDefinition_scaling (isCoroutine : Bool) :
    functionDefinition scalingTools scalingComponent isCoroutine =
      .ok (scalingHeader [] isCoroutine) := by
  have hparameters : signatureParameters scalingTools scalingComponent.ioInterface.inputs =
      .ok scalingParameters := by decide
  have hinputs : ((scalingComponent.ioInterface.inputs.filterMap fun input =>
      input.name.map fun name => (name, input)).mapM fun (name, input) => do
        let defaultValue ← defaultValuePart scalingTools input
        return componentInfoEntry name input.dataType defaultValue) =
      .ok scalingInputEntries := rfl
  have houtputs : (scalingComponent.ioInterface.outputs.filterMap fun output =>
      output.name.map fun name => componentInfoEntry name output.dataType []) =
      scalingOutputEntries := rfl
  have htimestamps : timestampEntries scalingTools scalingComponent = .ok [] := rfl
  have hlength : ¬ 77 < scalingComponent.description.length := by decide
  rw [functionDefinition, htimestamps, hparameters, hinputs, houtputs, if_neg hlength]
  have hanyInputs : decide (scalingComponent.ioInterface.inputs ≠ []) = true := rfl
  have hanyOutputs : decide (scalingComponent.ioInterface.outputs ≠ []) = true := rfl
  simp only [hanyInputs, hanyOutputs, bind, Except.bind, pure, Except.pure]
  have hcomment : "):\n    # entrypoint function for this component\n".toList =
      "):".toList ++ '\n' :: "    # entrypoint function for this component\n".toList :=
    toList_newline rfl rfl rfl
  have hid (id : UUID) : scalingTools.uuidStr id = scalingId := rfl
  rw [toList_mainDeclaration, hcomment, hid, hid]
  unfold scalingHeader scalingInfo
  simp only [List.append_assoc, List.nil_append, List.cons_append]

/-- The formatter adds an empty line to both headers. -/
theorem black_scaling (isCoroutine : Bool) :
    scalingTools.black (scalingCode [] isCoroutine) =
      some (scalingCode ['\n'] isCoroutine) := by
  have hlength : (mainDeclaration true).length ≠ (mainDeclaration false).length := by decide
  have hne : scalingCode [] false ≠ scalingCode [] true := by
    intro heq
    refine hlength ?_
    have hcode := congrArg List.length heq
    unfold scalingCode scalingHeader at hcode
    simp only [List.length_append, List.length_cons] at hcode
    omega
  have hblack (code : PyStr) : scalingTools.black code =
      if code = scalingCode [] true then some (scalingCode ['\n'] true)
      else if code = scalingCode [] false then some (scalingCode ['\n'] false)
      else some code := rfl
  cases isCoroutine with
  | true => rw [hblack, if_pos rfl]
  | false => rw [hblack, if_neg hne, if_pos rfl]

/-- There is no character of the last marker in front of it. -/
theorem notMem_scalingHeader (isCoroutine : Bool) :
    'V' ∉ doNotEditBelow ++ scalingHeader ['\n'] isCoroutine := by
  have hmain : 'V' ∉ mainDeclaration isCoroutine := by cases isCoroutine <;> decide
  unfold scalingHeader scalingInfo quoted componentInfoDict
  simp only [String.toList_append, List.mem_append, List.mem_cons, List.not_mem_nil, not_or,
    or_false]
  and_intros
  all_goals first | exact hmain | exact notMem_toList rfl (by decide) | decide

/-- Its headers are generated as expected. -/
theorem scalingComponent_generatesHeaders :
    GeneratesHeaders scalingTools scalingComponent where
  names := ⟨by decide, by decide⟩
  defaults := fun _ _ _ h => Except.ok.inj h ▸ by decide
  header := by
    intro isCoroutine
    refine ⟨scalingHeader [] isCoroutine, scalingHeader ['\n'] isCoroutine,
      functionDefinition_scaling isCoroutine, ?_, ?_, ?_⟩
    · exact generateFunctionHeader_of_black (functionDefinition_scaling isCoroutine)
        (black_scaling isCoroutine)
    · exact occursOnce_append (by decide) (notMem_scalingHeader isCoroutine)
    · rw [← definesCoroutine_eq_true_iff, ← definesCoroutine_eq_true_iff]
      unfold scalingHeader
      have hline : '\n' ∉ scalingParameters := by decide
      rw [definesCoroutine_mainDeclaration _ _ hline, definesCoroutine_mainDeclaration _ _ hline]

/-- A definition of the entrypoint as it may stand in code which is updated. -/
def oldDefinition : PyStr := "\nasync def main(*, signal):\n".toList

/-- Code with an old header in which the entrypoint is a coroutine: the text in front of the header
and the body behind it stay, and the entrypoint stays a coroutine. -/
theorem updateCode_idempotent_scaling : ∃ text' definition',
    updateCode scalingTools scalingComponent ("LIMIT = 1\n".toList ++
        (doNotEditBelow ++ oldDefinition ++ doNotEditAbove) ++ "\n    return await f(signal)\n".toList) =
      .ok text' ∧
    updateCode scalingTools scalingComponent text' = .ok text' ∧
    DividedByMarkers text' "LIMIT = 1\n".toList definition' "\n    return await f(signal)\n".toList ∧
    MainIsCoroutine definition' := by
  obtain ⟨text', hupdate, hagain, hkept⟩ :=
    updateCode_idempotent scalingComponent_generatesHeaders _
  have hdivided := dividedByMarkers_header
    (by decide : splitFirst doNotEditBelow ("LIMIT = 1\n".toList ++ doNotEditBelow) = _)
    (by decide : splitFirst doNotEditAbove (oldDefinition ++ doNotEditAbove) = _)
    "\n    return await f(signal)\n".toList
  obtain ⟨definition', hdivided', hmain⟩ := hkept _ _ _ hdivided
  refine ⟨text', definition', hupdate, hagain, hdivided', hmain.mpr ?_⟩
  exact (definesCoroutine_eq_true_iff _).mp (by decide)

end HetidaDesigner
