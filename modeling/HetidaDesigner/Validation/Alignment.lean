import HetidaDesigner.Validation.FixedPoint

/-!
# Where the clean-up moves link connectors

A connector that some kept named io touches ends up at the position of one of the ios that
touch it. With unique names there is only one such io, so links which the clean-up leaves as
they are were aligned before.
-/

namespace HetidaDesigner

open Checks LastEntry

variable {V : Type}

/-! ## Start connectors -/

/-- Links are moved by alignment with an input or stay. -/
theorem mem_alignStartPosition {wfInput : WorkflowContentDynamicInput V} {links : List Link}
    {link : Link} (h : link ∈ alignStartPosition wfInput links) :
    (touchesStart wfInput link ∧ link.start.connector.position = wfInput.position) ∨
      (¬ touchesStart wfInput link ∧ link ∈ links) := by
  obtain ⟨link', hlink', rfl⟩ := List.mem_map.mp h
  split
  · rename_i htouches
    exact Or.inl ⟨htouches, rfl⟩
  · rename_i htouches
    exact Or.inr ⟨htouches, hlink'⟩

/-- The clean-up of inputs which are all kept, taken apart at the first one. -/
theorem cleanUpWorkflowContentInputs_cons {operators : List (Operator V)}
    {links links' : List Link} {wfInput : WorkflowContentDynamicInput V}
    {rest kept : List (WorkflowContentDynamicInput V)}
    (h : cleanUpWorkflowContentInputs operators links (wfInput :: rest) = .ok (kept, links'))
    (hkept : wfInputKept operators links wfInput = true) :
    ∃ kept', cleanUpWorkflowContentInputs operators
      (if wfInput.named then alignStartPosition wfInput links else links) rest =
        .ok (kept', links') := by
  obtain ⟨hnecessary, hnamed⟩ := (wfInputKept_iff _ _ _).mp hkept
  unfold cleanUpWorkflowContentInputs at h
  rw [if_neg (by simp [hnecessary])] at h
  split at h
  · rename_i hname
    obtain ⟨unnecessary, hunnecessary, hloop⟩ := bind_eq_ok.mp h
    obtain ⟨⟨kept', links''⟩, hrest, h⟩ := bind_eq_ok.mp hloop
    obtain ⟨-, rfl⟩ := Prod.mk.inj (return_eq_ok.mp h)
    exact ⟨kept', by rw [if_pos hname]; exact hrest⟩
  · rename_i hname
    obtain ⟨⟨kept', links''⟩, hrest, h⟩ := bind_eq_ok.mp h
    obtain ⟨-, rfl⟩ := Prod.mk.inj (return_eq_ok.mp h)
    exact ⟨kept', by rw [if_neg hname]; exact hrest⟩

/-- Aligning with a kept input keeps the tests on the others. -/
theorem wfInputKept_align (operators : List (Operator V)) (links : List Link)
    (wfInput : WorkflowContentDynamicInput V) :
    wfInputKept operators (if wfInput.named then alignStartPosition wfInput links else links) =
      wfInputKept operators links := by
  split
  · exact (alignStartPosition_sameButPositions wfInput links).wfInputKept operators
  · rfl

/-- Links which no named input touches stay as they are. -/
theorem mem_of_not_touchesStart {operators : List (Operator V)} {links links' : List Link}
    {inputs kept : List (WorkflowContentDynamicInput V)}
    (h : cleanUpWorkflowContentInputs operators links inputs = .ok (kept, links'))
    (hkept : ∀ wfInput ∈ inputs, wfInputKept operators links wfInput = true)
    {link : Link} (hlink : link ∈ links')
    (huntouched : ∀ wfInput ∈ inputs, wfInput.named = true → ¬ touchesStart wfInput link) :
    link ∈ links := by
  induction inputs generalizing links kept with
  | nil =>
    obtain ⟨-, rfl⟩ := Prod.mk.inj (Except.ok.inj h)
    exact hlink
  | cons wfInput rest ih =>
    obtain ⟨kept', hrest⟩ := cleanUpWorkflowContentInputs_cons h (hkept _ (List.mem_cons_self ..))
    have hmem := ih hrest
      (fun w hw => by rw [wfInputKept_align]; exact hkept w (List.mem_cons_of_mem _ hw))
      (fun w hw => huntouched w (List.mem_cons_of_mem _ hw))
    split at hmem
    · rename_i hname
      rcases mem_alignStartPosition hmem with ⟨htouches, -⟩ | ⟨-, hmem⟩
      · exact absurd htouches (huntouched wfInput (List.mem_cons_self ..) hname)
      · exact hmem
    · exact hmem

/-- A start connector touched by a named input ends up at an input which touches it. -/
theorem exists_start_position {operators : List (Operator V)} {links links' : List Link}
    {inputs kept : List (WorkflowContentDynamicInput V)}
    (h : cleanUpWorkflowContentInputs operators links inputs = .ok (kept, links'))
    (hkept : ∀ wfInput ∈ inputs, wfInputKept operators links wfInput = true)
    {link : Link} (hlink : link ∈ links')
    (htouched : ∃ wfInput ∈ inputs, wfInput.named = true ∧ touchesStart wfInput link) :
    ∃ wfInput ∈ inputs, wfInput.named = true ∧ touchesStart wfInput link ∧
      link.start.connector.position = wfInput.position := by
  induction inputs generalizing links kept with
  | nil => simp at htouched
  | cons first rest ih =>
    obtain ⟨kept', hrest⟩ := cleanUpWorkflowContentInputs_cons h (hkept _ (List.mem_cons_self ..))
    have hkept' : ∀ w ∈ rest, wfInputKept operators
        (if first.named then alignStartPosition first links else links) w = true := fun w hw => by
      rw [wfInputKept_align]
      exact hkept w (List.mem_cons_of_mem _ hw)
    -- The last input which touches the link decides.
    by_cases hlater : ∃ w ∈ rest, w.named = true ∧ touchesStart w link
    · obtain ⟨w, hw, hposition⟩ := ih hrest hkept' hlater
      exact ⟨w, List.mem_cons_of_mem _ hw, hposition⟩
    · have huntouched : ∀ w ∈ rest, w.named = true → ¬ touchesStart w link :=
        fun w hw hnamed htouches => hlater ⟨w, hw, hnamed, htouches⟩
      obtain ⟨w, hw, hnamed, htouches⟩ := htouched
      rcases List.mem_cons.mp hw with rfl | hw
      · have hmem := mem_of_not_touchesStart hrest hkept' hlink huntouched
        rw [if_pos hnamed] at hmem
        rcases mem_alignStartPosition hmem with ⟨-, hposition⟩ | ⟨hnot, -⟩
        · exact ⟨w, List.mem_cons_self .., hnamed, htouches, hposition⟩
        · exact absurd htouches hnot
      · exact absurd htouches (huntouched w hw hnamed)

/-! ## End connectors -/

/-- Changing the last link with some end changes the lookup of that end only. -/
theorem linkByEnd_modifyLast {f : Link → Link} (hf : ∀ link, (f link).finish.key = link.finish.key)
    (links : List Link) (key key' : Option UUID × UUID) :
    linkByEnd (modifyLast (fun link => link.finish.key = key) f links) key' =
      (linkByEnd links key').map fun link => if key' = key then f link else link := by
  induction links with
  | nil => rfl
  | cons link rest ih =>
    have hcons (l : Link) (ls : List Link) : linkByEnd (l :: ls) key' =
        (linkByEnd ls key').or (if l.finish.key = key' then some l else none) :=
      lastEntry_cons _ _ _ _
    unfold modifyLast
    split
    · rename_i hlast
      obtain ⟨hkey, hrest⟩ := hlast
      have hlink : link.finish.key = key := of_decide_eq_true hkey
      rw [hcons, hcons, hf]
      by_cases hkey' : key' = key
      · have hnone : linkByEnd rest key' = none := by
          refine lastEntry_eq_none.mpr fun b hb hbkey => hrest ?_
          exact List.any_eq_true.mpr ⟨b, hb, by simp [hbkey, hkey']⟩
        rw [hnone, hlink, if_pos hkey'.symm]
        simp [hkey']
      · have hne : link.finish.key ≠ key' := fun heq => hkey' (heq.symm.trans hlink)
        simp [hne, hkey']
    · rename_i hlast
      rw [hcons, hcons, ih]
      by_cases hlink : link.finish.key = key'
      · by_cases hkey' : key' = key
        · -- The key occurs again in the rest, where the change is made.
          have hany : (rest.any fun l => decide (l.finish.key = key)) = true := by
            by_contra hany
            exact hlast ⟨by simp [hlink, hkey'], hany⟩
          obtain ⟨b, hb, hbkey⟩ := List.any_eq_true.mp hany
          obtain ⟨c, hc⟩ := exists_lastEntry (fun l : Link => l.finish.key) hb
          rw [of_decide_eq_true hbkey, ← hkey'] at hc
          have hc' : linkByEnd rest key' = some c := hc
          simp [hc']
        · simp only [if_neg hkey', hlink]
          cases linkByEnd rest key' <;> rfl
      · simp [hlink]

/-- The end connector of a link after alignment with an output. -/
theorem linkByEnd_alignEndPosition {wfOutput : WorkflowContentOutput} {links : List Link}
    {key : Option UUID × UUID} {link : Link}
    (h : linkByEnd (alignEndPosition wfOutput links) key = some link) :
    (touchesFinish wfOutput link ∧ link.finish.connector.position = wfOutput.position) ∨
      (¬ touchesFinish wfOutput link ∧ linkByEnd links key = some link) := by
  rw [alignEndPosition, linkByEnd_modifyLast (fun l => by split <;> rfl), Option.map_eq_some_iff]
    at h
  obtain ⟨link', hlink', hlink⟩ := h
  have hkey : link'.finish.key = key := (mem_of_lastEntry hlink').2
  by_cases hthis : key = (none, wfOutput.id)
  · rw [if_pos hthis] at hlink
    split at hlink
    · rename_i hmatches
      subst hlink
      exact Or.inl ⟨⟨hkey.trans hthis, hmatches⟩, rfl⟩
    · rename_i hmatches
      subst hlink
      exact Or.inr ⟨fun htouches => hmatches htouches.2, hlink'⟩
  · rw [if_neg hthis] at hlink
    subst hlink
    exact Or.inr ⟨fun htouches => hthis (hkey.symm.trans htouches.1), hlink'⟩

/-- The clean-up of outputs which are all kept, taken apart at the first one. -/
theorem cleanUpWorkflowContentOutputs_cons {operators : List (Operator V)} {links : List Link}
    {wfOutput : WorkflowContentOutput} (rest : List WorkflowContentOutput)
    (hkept : wfOutputKept operators links wfOutput = true) :
    (cleanUpWorkflowContentOutputs operators links (wfOutput :: rest)).2 =
      (cleanUpWorkflowContentOutputs operators
        (if wfOutput.named then alignEndPosition wfOutput links else links) rest).2 := by
  obtain ⟨hnecessary, -⟩ := (wfOutputKept_iff _ _ _).mp hkept
  conv_lhs => unfold cleanUpWorkflowContentOutputs
  rw [if_neg (by simp [hnecessary])]
  split <;> simp

/-- Aligning with a kept output keeps the tests on the others. -/
theorem wfOutputKept_align (operators : List (Operator V)) (links : List Link)
    (wfOutput : WorkflowContentOutput) :
    wfOutputKept operators (if wfOutput.named then alignEndPosition wfOutput links else links) =
      wfOutputKept operators links := by
  split
  · exact (alignEndPosition_sameButPositions wfOutput links).wfOutputKept operators
  · rfl

/-- The link filed under an end which no named output touches stays as it is. -/
theorem linkByEnd_of_not_touchesFinish {operators : List (Operator V)} {links : List Link}
    {outputs : List WorkflowContentOutput}
    (hkept : ∀ wfOutput ∈ outputs, wfOutputKept operators links wfOutput = true)
    {key : Option UUID × UUID} {link : Link}
    (hlink : linkByEnd (cleanUpWorkflowContentOutputs operators links outputs).2 key = some link)
    (huntouched : ∀ wfOutput ∈ outputs, wfOutput.named = true → ¬ touchesFinish wfOutput link) :
    linkByEnd links key = some link := by
  induction outputs generalizing links with
  | nil => exact hlink
  | cons first rest ih =>
    rw [cleanUpWorkflowContentOutputs_cons rest (hkept _ (List.mem_cons_self ..))] at hlink
    have hrest := ih
      (fun w hw => by rw [wfOutputKept_align]; exact hkept w (List.mem_cons_of_mem _ hw)) hlink
      (fun w hw => huntouched w (List.mem_cons_of_mem _ hw))
    split at hrest
    · rename_i hname
      rcases linkByEnd_alignEndPosition hrest with ⟨htouches, -⟩ | ⟨-, hlast⟩
      · exact absurd htouches (huntouched first (List.mem_cons_self ..) hname)
      · exact hlast
    · exact hrest

/-- An end connector touched by a named output ends up at an output which touches it. -/
theorem exists_finish_position {operators : List (Operator V)} {links : List Link}
    {outputs : List WorkflowContentOutput}
    (hkept : ∀ wfOutput ∈ outputs, wfOutputKept operators links wfOutput = true)
    {key : Option UUID × UUID} {link : Link}
    (hlink : linkByEnd (cleanUpWorkflowContentOutputs operators links outputs).2 key = some link)
    (htouched : ∃ wfOutput ∈ outputs, wfOutput.named = true ∧ touchesFinish wfOutput link) :
    ∃ wfOutput ∈ outputs, wfOutput.named = true ∧ touchesFinish wfOutput link ∧
      link.finish.connector.position = wfOutput.position := by
  induction outputs generalizing links with
  | nil => simp at htouched
  | cons first rest ih =>
    rw [cleanUpWorkflowContentOutputs_cons rest (hkept _ (List.mem_cons_self ..))] at hlink
    have hkept' : ∀ w ∈ rest, wfOutputKept operators
        (if first.named then alignEndPosition first links else links) w = true := fun w hw => by
      rw [wfOutputKept_align]
      exact hkept w (List.mem_cons_of_mem _ hw)
    by_cases hlater : ∃ w ∈ rest, w.named = true ∧ touchesFinish w link
    · obtain ⟨w, hw, hposition⟩ := ih hkept' hlink hlater
      exact ⟨w, List.mem_cons_of_mem _ hw, hposition⟩
    · have huntouched : ∀ w ∈ rest, w.named = true → ¬ touchesFinish w link :=
        fun w hw hnamed htouches => hlater ⟨w, hw, hnamed, htouches⟩
      obtain ⟨w, hw, hnamed, htouches⟩ := htouched
      rcases List.mem_cons.mp hw with rfl | hw
      · have hlast := linkByEnd_of_not_touchesFinish hkept' hlink huntouched
        rw [if_pos hnamed] at hlast
        rcases linkByEnd_alignEndPosition hlast with ⟨-, hposition⟩ | ⟨hnot, -⟩
        · exact ⟨w, List.mem_cons_self .., hnamed, htouches, hposition⟩
        · exact absurd htouches hnot
      · exact absurd htouches (huntouched w hw hnamed)

/-- Changing end connectors keeps the starts of links. -/
theorem map_start_modifyLast {p : Link → Bool} {f : Link → Link}
    (hf : ∀ link, (f link).start = link.start) (links : List Link) :
    (modifyLast p f links).map Link.start = links.map Link.start := by
  induction links with
  | nil => rfl
  | cons link rest ih =>
    unfold modifyLast
    split
    · rw [List.map_cons, List.map_cons, hf]
    · rw [List.map_cons, List.map_cons, ih]

/-- The clean-up of outputs moves no start connectors. -/
theorem map_start_cleanUpWorkflowContentOutputs (operators : List (Operator V))
    (links : List Link) (outputs : List WorkflowContentOutput) :
    (cleanUpWorkflowContentOutputs operators links outputs).2.map Link.start =
      links.map Link.start := by
  induction outputs generalizing links with
  | nil => rfl
  | cons wfOutput rest ih =>
    unfold cleanUpWorkflowContentOutputs
    split
    · exact ih links
    · split
      · refine (ih _).trans (map_start_modifyLast (fun link => ?_) links)
        split <;> rfl
      · exact ih links

end HetidaDesigner
