import Mathlib.Logic.Relation
import Mathlib.Data.Set.Finite.List
import Mathlib.Order.WellFoundedSet

/-!
# Directed graphs given by a list of edges

A list of pairs is a finite directed multigraph. Acyclicity is invariant under removing the
outgoing edges of a vertex without incoming ones, and a non-empty acyclic edge list always
has such a vertex; these two facts justify any elimination of vertices by indegree.
-/

namespace EdgeList

variable {α : Type*}

/-- Some edge of the list leads from the first vertex to the second. -/
def Adj (edges : List (α × α)) (a b : α) : Prop := (a, b) ∈ edges

/-- No vertex is reachable from itself along at least one edge. -/
def Acyclic (edges : List (α × α)) : Prop := ∀ v, ¬ Relation.TransGen (Adj edges) v v

/-- Reachability along at least one edge only grows with the edges. -/
theorem transGen_mono {edges edges' : List (α × α)} (hsub : ∀ e ∈ edges, e ∈ edges') {a b : α}
    (h : Relation.TransGen (Adj edges) a b) : Relation.TransGen (Adj edges') a b :=
  Relation.TransGen.mono (fun _ _ hab => hsub _ hab) _ _ h

/-- Fewer edges keep acyclicity. -/
theorem Acyclic.mono {edges edges' : List (α × α)} (h : Acyclic edges')
    (hsub : ∀ e ∈ edges, e ∈ edges') : Acyclic edges :=
  fun v hv => h v (transGen_mono hsub hv)

/-- Edges have no cycle under other, different names. -/
theorem Acyclic.map {β : Type*} {f : α → β} (hf : Function.Injective f)
    {edges : List (α × α)} (h : Acyclic edges) :
    Acyclic (edges.map fun edge => (f edge.1, f edge.2)) := by
  have hback : ∀ v w, Relation.TransGen (Adj (edges.map fun edge => (f edge.1, f edge.2))) v w →
      ∃ a b, f a = v ∧ f b = w ∧ Relation.TransGen (Adj edges) a b := by
    intro v w hpath
    induction hpath with
    | single hedge =>
      obtain ⟨edge, hmem, heq⟩ := List.mem_map.mp hedge
      obtain ⟨rfl, rfl⟩ := Prod.mk.inj heq
      exact ⟨edge.1, edge.2, rfl, rfl, .single hmem⟩
    | tail _ hedge ih =>
      obtain ⟨a, b, ha, hb, hpath⟩ := ih
      obtain ⟨edge, hmem, heq⟩ := List.mem_map.mp hedge
      obtain ⟨hstart, rfl⟩ := Prod.mk.inj heq
      obtain rfl := hf (hstart.trans hb.symm)
      exact ⟨a, edge.2, ha, rfl, hpath.tail hmem⟩
  intro v hv
  obtain ⟨a, b, ha, hb, hpath⟩ := hback v v hv
  obtain rfl := hf (ha.trans hb.symm)
  exact h a hpath

/-- The empty edge list has no cycle. -/
theorem acyclic_nil : Acyclic ([] : List (α × α)) := by
  intro v hv
  obtain ⟨w, -, hw⟩ := Relation.TransGen.tail'_iff.mp hv
  exact absurd hw (by simp [Adj])

/-- Edges along which a rank grows have no cycle. -/
theorem acyclic_of_rank {edges : List (α × α)} (rank : α → ℕ)
    (h : ∀ edge ∈ edges, rank edge.1 < rank edge.2) : Acyclic edges := by
  have hgrows {a b : α} (hwalk : Relation.TransGen (Adj edges) a b) : rank a < rank b := by
    induction hwalk with
    | single hedge => exact h _ hedge
    | tail _ hedge ih => exact ih.trans (h _ hedge)
  exact fun v hcycle => absurd (hgrows hcycle) (Nat.lt_irrefl _)

/-- Every walk of positive length ends at the head of some edge. -/
theorem exists_edge_to_of_transGen {edges : List (α × α)} {a b : α}
    (h : Relation.TransGen (Adj edges) a b) : ∃ c, (c, b) ∈ edges := by
  obtain ⟨c, -, hc⟩ := Relation.TransGen.tail'_iff.mp h
  exact ⟨c, hc⟩

/-- Every walk of positive length starts at the tail of some edge. -/
theorem exists_edge_from_of_transGen {edges : List (α × α)} {a b : α}
    (h : Relation.TransGen (Adj edges) a b) : ∃ c, (a, c) ∈ edges := by
  obtain ⟨c, hc, -⟩ := Relation.TransGen.head'_iff.mp h
  exact ⟨c, hc⟩

/-- The vertices which are the tail of some edge. -/
def tails (edges : List (α × α)) : Set α := {v | ∃ w, (v, w) ∈ edges}

/-- Only finitely many vertices have outgoing edges. -/
theorem tails_finite (edges : List (α × α)) : (tails edges).Finite := by
  apply (List.finite_toSet (edges.map Prod.fst)).subset
  rintro v ⟨w, hw⟩
  exact List.mem_map.mpr ⟨(v, w), hw, rfl⟩

/-- On an acyclic edge list reachability is well-founded. -/
theorem Acyclic.wellFounded {edges : List (α × α)} (h : Acyclic edges) :
    WellFounded (Relation.TransGen (Adj edges)) := by
  have hfin : (tails edges).WellFoundedOn (Relation.TransGen (Adj edges)) := by
    have : IsStrictOrder α (Relation.TransGen (Adj edges)) :=
      { irrefl := h, trans := fun _ _ _ => Relation.TransGen.trans }
    exact (tails_finite edges).wellFoundedOn
  refine ⟨fun b => ⟨b, fun a hab => ?_⟩⟩
  obtain ⟨c, hc⟩ := exists_edge_from_of_transGen hab
  have hmem : a ∈ tails edges := ⟨c, hc⟩
  refine Set.WellFoundedOn.induction (P := fun v => Acc (Relation.TransGen (Adj edges)) v) hfin hmem ?_
  intro v _ ih
  refine ⟨v, fun u huv => ?_⟩
  obtain ⟨w, hw⟩ := exists_edge_from_of_transGen huv
  exact ih u ⟨w, hw⟩ huv

/-- A non-empty acyclic edge list has an edge whose tail is the head of no edge. -/
theorem Acyclic.exists_source {edges : List (α × α)} (h : Acyclic edges) (hne : edges ≠ []) :
    ∃ v w, (v, w) ∈ edges ∧ ∀ u, (u, v) ∉ edges := by
  obtain ⟨e, he⟩ := List.exists_mem_of_ne_nil edges hne
  obtain ⟨v, ⟨w, hw⟩, hmin⟩ := h.wellFounded.has_min (tails edges) ⟨e.1, e.2, he⟩
  exact ⟨v, w, hw, fun u hu => hmin u ⟨v, hu⟩ (.single hu)⟩

/-- Removing the outgoing edges of a vertex without incoming edges does not hide a cycle. -/
theorem acyclic_of_filter_source [DecidableEq α] {edges : List (α × α)} {v : α}
    (hv : ∀ u, (u, v) ∉ edges) (h : Acyclic (edges.filter fun e => e.1 ≠ v)) :
    Acyclic edges := by
  have hstep : ∀ a b, a ≠ v → Relation.TransGen (Adj edges) a b →
      Relation.TransGen (Adj (edges.filter fun e => e.1 ≠ v)) a b := by
    intro a b hav hab
    have hadj : ∀ {c d : α}, c ≠ v → Adj edges c d →
        Adj (edges.filter fun e => e.1 ≠ v) c d :=
      fun hc hcd => List.mem_filter.mpr ⟨hcd, by simpa using hc⟩
    induction hab with
    | single hab => exact .single (hadj hav hab)
    | tail hac hcb ih =>
      rename_i c b
      -- the intermediate vertex is the head of an edge, hence not the removed one
      have hcv : c ≠ v := by
        rintro rfl
        obtain ⟨u, hu⟩ := exists_edge_to_of_transGen hac
        exact hv u hu
      exact ih.tail (hadj hcv hcb)
  intro u hu
  have huv : u ≠ v := by
    rintro rfl
    obtain ⟨w, hw⟩ := exists_edge_to_of_transGen hu
    exact hv w hw
  exact h u (hstep u u huv hu)

/-- A graph in which every tail of an edge is also a head has a cycle, unless it is empty. -/
theorem not_acyclic_of_no_source {edges : List (α × α)} (hne : edges ≠ [])
    (h : ∀ v w, (v, w) ∈ edges → ∃ u, (u, v) ∈ edges) : ¬ Acyclic edges := by
  intro hac
  obtain ⟨v, w, hvw, hsource⟩ := hac.exists_source hne
  obtain ⟨u, hu⟩ := h v w hvw
  exact hsource u hu

/-- Edges at which walks only begin or end do not close a cycle: if all others form none, there is
none. -/
theorem Acyclic.of_inner {edges inner : List (α × α)} (h : Acyclic inner)
    (hinner : ∀ a b, (a, b) ∈ edges → (∃ u, (u, a) ∈ edges) → (∃ w, (b, w) ∈ edges) →
      (a, b) ∈ inner) : Acyclic edges := by
  have hwalk : ∀ {a b : α}, Relation.TransGen (Adj edges) a b → (∃ u, (u, a) ∈ edges) →
      (∃ w, (b, w) ∈ edges) → Relation.TransGen (Adj inner) a b := by
    intro a b hab hbefore
    induction hab with
    | single hab => exact fun hafter => .single (hinner _ _ hab hbefore hafter)
    | tail hac hcb ih =>
      intro hafter
      exact (ih ⟨_, hcb⟩).tail (hinner _ _ hcb (exists_edge_to_of_transGen hac) hafter)
  intro v hv
  exact h v (hwalk hv (exists_edge_to_of_transGen hv) (exists_edge_from_of_transGen hv))

end EdgeList
