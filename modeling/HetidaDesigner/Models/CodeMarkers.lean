import HetidaDesigner.Models.ComponentCode

/-!
# The generated part of component code

Between its two marker lines component code is generated. An update exchanges that part as long
as both lines are there, and whatever stands before and behind it stays as it is. This relies on
the code formatter, which keeps comments and adds no line that looks like a marker.
-/

namespace HetidaDesigner

open Checks SplitFirst

/-- The code before and behind the part between the marker lines. -/
def outsideMarkers (text : PyStr) : Option (PyStr × PyStr) :=
  match splitFirst doNotEditBelow text with
  | none => none
  | some (start, remaining) =>
    (splitFirst doNotEditAbove remaining).map fun parts => (start, parts.2)

/-- Code is the same outside of the generated part. -/
def KeptCode (text text' : PyStr) : Prop :=
  text' = text ∨ ∃ parts, outsideMarkers text = some parts ∧ outsideMarkers text' = some parts

/-- Keeping code twice. -/
theorem KeptCode.trans {text text' text'' : PyStr} (h : KeptCode text text')
    (h' : KeptCode text' text'') : KeptCode text text'' := by
  rcases h' with rfl | ⟨parts', hmiddle', hlast⟩
  · exact h
  · rcases h with rfl | ⟨parts, hfirst, hmiddle⟩
    · exact Or.inr ⟨parts', hmiddle', hlast⟩
    · obtain rfl := Option.some.inj (hmiddle'.symm.trans hmiddle)
      exact Or.inr ⟨parts', hfirst, hlast⟩

/-- Characters of identifiers; on ASCII these are letters, digits and the underscore. -/
def identifierChar (c : Char) : Bool := c.isAlphanum || c = '_' || 128 ≤ c.toNat

/-- The names of ios are identifiers, or empty. -/
def IOInterface.NamesIdentifiers {V : Type} (ioInterface : IOInterface V) : Prop :=
  (∀ input ∈ ioInterface.inputs, ∀ name ∈ input.name, name.all identifierChar) ∧
    ∀ output ∈ ioInterface.outputs, ∀ name ∈ output.name, name.all identifierChar

section Update

variable {V D : Type} [UnicodeData]

/-- The formatter keeps the marker lines around a generated function definition and the body
behind it, and adds no further one. -/
def KeepsMarkers (tools : CodeTools V D) : Prop :=
  ∀ (component : TransformationRevision V (WorkflowWiring D)) (isCoroutine : Bool)
    (definition formatted : PyStr), component.stringsValid = true →
    component.ioInterface.NamesIdentifiers →
    functionDefinition tools component isCoroutine = .ok definition →
    tools.black (doNotEditBelow ++ definition ++ doNotEditAbove ++ functionBodyTemplate) =
      some formatted →
    ∃ middle, formatted = doNotEditBelow ++ middle ++ doNotEditAbove ++ functionBodyTemplate ∧
      splitFirst doNotEditAbove (middle ++ doNotEditAbove) = some (middle, [])

omit [UnicodeData] in
/-- A suffix is removed. -/
theorem removeSuffix_append (s final : PyStr) : removeSuffix (s ++ final) final = s := by
  rw [removeSuffix, if_pos (List.isSuffixOf_iff_suffix.mpr (List.suffix_append s final)),
    List.length_append, Nat.add_sub_cancel, List.take_left]

omit [UnicodeData] in
/-- Code which ends with the body is taken from the formatter as it is. -/
theorem formatCodeWithBlack_of_body {tools : CodeTools V D} {code before : PyStr}
    (h : tools.black code = some (before ++ functionBodyTemplate)) :
    formatCodeWithBlack tools code = .ok (before ++ functionBodyTemplate) := by
  have hlast : (before ++ functionBodyTemplate).getLast? = some '\n' := by
    rw [List.getLast?_append_of_ne_nil _ (by decide)]
    decide
  rw [formatCodeWithBlack, h]
  simp only [hlast, or_true, if_true]

variable {tools : CodeTools V D} {component : TransformationRevision V (WorkflowWiring D)}

/-- A header consists of the marker lines and what they enclose. -/
theorem KeepsMarkers.generateFunctionHeader (hkeeps : KeepsMarkers tools) {isCoroutine : Bool}
    {header : PyStr} (hstrings : component.stringsValid = true)
    (hnames : component.ioInterface.NamesIdentifiers)
    (h : generateFunctionHeader tools component isCoroutine = .ok header) :
    ∃ middle, header = doNotEditBelow ++ middle ++ doNotEditAbove ∧
      splitFirst doNotEditAbove (middle ++ doNotEditAbove) = some (middle, []) := by
  unfold HetidaDesigner.generateFunctionHeader formatFunctionHeader at h
  obtain ⟨definition, hdefinition, h⟩ := bind_eq_ok.mp h
  obtain ⟨formatted, hformatted, h⟩ := bind_eq_ok.mp h
  obtain rfl := return_eq_ok.mp h
  cases hblack : tools.black
      (doNotEditBelow ++ definition ++ doNotEditAbove ++ functionBodyTemplate) with
  | none =>
    rw [formatCodeWithBlack, hblack] at hformatted
    cases hformatted
  | some result =>
    obtain ⟨middle, rfl, hmiddle⟩ :=
      hkeeps component isCoroutine definition result hstrings hnames hdefinition hblack
    rw [formatCodeWithBlack_of_body hblack] at hformatted
    obtain rfl := Except.ok.inj hformatted
    exact ⟨middle, removeSuffix_append _ _, hmiddle⟩

/-- The update of code with both marker lines keeps what stands outside of them. -/
theorem KeepsMarkers.updateCode (hkeeps : KeepsMarkers tools) {text text' : PyStr}
    (hstrings : component.stringsValid = true) (hnames : component.ioInterface.NamesIdentifiers)
    (hmarkers : (outsideMarkers text).isSome)
    (h : updateCode tools component text = .ok text') : KeptCode text text' := by
  obtain ⟨parts, hparts⟩ := Option.isSome_iff_exists.mp hmarkers
  refine Or.inr ⟨parts, hparts, ?_⟩
  unfold outsideMarkers at hparts
  unfold HetidaDesigner.updateCode at h
  split at h
  · rename_i hempty
    rw [hempty] at hparts
    cases hparts
  · obtain ⟨header, -, h⟩ := bind_eq_ok.mp h
    split at hparts
    · cases hparts
    · rename_i start remaining hbelow
      obtain ⟨⟨definition, rest⟩, habove, rfl⟩ := Option.map_eq_some_iff.mp hparts
      simp only [hbelow, habove] at h
      obtain ⟨header, hheader, h⟩ := bind_eq_ok.mp h
      obtain rfl := return_eq_ok.mp h
      obtain ⟨middle, rfl, hmiddle⟩ := hkeeps.generateFunctionHeader hstrings hnames hheader
      rw [splitFirst_eq_some hbelow] at hbelow
      have hstart := splitFirst_exchange hbelow (middle ++ doNotEditAbove ++ rest)
      have hrest := splitFirst_append hmiddle rest
      have htext : start ++ (doNotEditBelow ++ middle ++ doNotEditAbove) ++ rest =
          start ++ doNotEditBelow ++ (middle ++ doNotEditAbove ++ rest) := by
        simp only [List.append_assoc]
      rw [outsideMarkers, htext, hstart]
      simp only [hrest, Option.map_some, List.nil_append]

end Update

end HetidaDesigner
