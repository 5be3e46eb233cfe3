import HetidaDesigner.Library.EdgeList
import HetidaDesigner.Models.Link
import Mathlib.Data.List.Count

/-!
# The cycle check on links

The validator `links_acyclic_directed_graph` turns links into edges between operators, or
between an operator and an outer connector, and removes vertices of indegree zero until none
is left. It accepts if no edge remains. The indegree dictionary is an association list in
insertion order, from which the first vertex of indegree zero is taken.
-/

namespace HetidaDesigner

/-- The dictionary of indegrees and the list of edges which the validator works on. -/
structure Elimination where
  indegrees : List (UUID × ℕ)
  edges : List (UUID × UUID)

namespace Elimination

/-- Nothing added yet. -/
def empty : Elimination := ⟨[], []⟩

/-- The vertices which have not been removed. -/
def vertices (g : Elimination) : List UUID := g.indegrees.map Prod.fst

/-- Enter a vertex with indegree zero unless it is known. -/
def addVertex (g : Elimination) (v : UUID) : Elimination :=
  if v ∈ g.vertices then g else { g with indegrees := g.indegrees ++ [(v, 0)] }

/-- Raise the indegree of a vertex. -/
def countEdgeTo (g : Elimination) (v : UUID) : Elimination :=
  { g with indegrees := g.indegrees.map fun p => if p.1 = v then (p.1, p.2 + 1) else p }

/-- Add an edge, entering its vertices and counting it at its end. -/
def addEdge (g : Elimination) (edge : UUID × UUID) : Elimination :=
  let g := ((g.addVertex edge.1).addVertex edge.2).countEdgeTo edge.2
  { g with edges := g.edges ++ [edge] }

/-- Lower the indegree of a vertex unless it is zero. -/
def uncountEdgeTo (indegrees : List (UUID × ℕ)) (v : UUID) : List (UUID × ℕ) :=
  indegrees.map fun p => if p.1 = v then (p.1, p.2 - 1) else p

/-- Remove a vertex with its outgoing edges. -/
def removeOutgoingEdges (g : Elimination) (v : UUID) : Elimination :=
  let ends := (g.edges.filter fun e => e.1 = v).map Prod.snd
  { indegrees := (ends.foldl uncountEdgeTo g.indegrees).filter fun p => p.1 ≠ v
    edges := g.edges.filter fun e => e.1 ≠ v }

/-- The first vertex of indegree zero. -/
def firstSource (g : Elimination) : Option UUID :=
  (g.indegrees.find? fun p => p.2 = 0).map Prod.fst

/-- The loop of the validator; each round removes a vertex, which bounds the rounds. -/
def eliminate : ℕ → Elimination → Elimination
  | 0, g => g
  | rounds + 1, g =>
    match g.firstSource with
    | none => g
    | some v => eliminate rounds (g.removeOutgoingEdges v)

/-- The number of edges into a vertex. -/
def indegree (edges : List (UUID × UUID)) (v : UUID) : ℕ := (edges.map Prod.snd).count v

/-- The dictionary lists each vertex once with its indegree, and covers all edges. -/
structure Counts (g : Elimination) : Prop where
  nodup : g.vertices.Nodup
  indegree_eq : ∀ p ∈ g.indegrees, p.2 = indegree g.edges p.1
  start_mem : ∀ e ∈ g.edges, e.1 ∈ g.vertices
  end_mem : ∀ e ∈ g.edges, e.2 ∈ g.vertices

/-- Changing entries in place keeps the vertices. -/
theorem map_fst_modify (indegrees : List (UUID × ℕ)) (f : UUID × ℕ → ℕ) (v : UUID) :
    (indegrees.map fun p => if p.1 = v then (p.1, f p) else p).map Prod.fst =
      indegrees.map Prod.fst := by
  rw [List.map_map]
  refine List.map_congr_left fun p _ => ?_
  simp only [Function.comp_apply]
  split <;> rfl

/-- Entering a vertex keeps the counts right if no edge touches it yet. -/
theorem Counts.addVertex {g : Elimination} (h : g.Counts) (v : UUID) : (g.addVertex v).Counts := by
  unfold Elimination.addVertex
  split
  · exact h
  · rename_i hv
    have hvertices : ∀ u ∈ g.vertices, u ∈ g.vertices ++ [v] :=
      fun u hu => List.mem_append_left _ hu
    refine ⟨?_, ?_, ?_, ?_⟩
    · simpa [vertices, List.nodup_append] using
        ⟨h.nodup, fun a b hab hav => hv (hav ▸ List.mem_map.mpr ⟨(a, b), hab, rfl⟩)⟩
    · intro p hp
      rcases List.mem_append.mp hp with hp | hp
      · exact h.indegree_eq p hp
      · obtain rfl := List.mem_singleton.mp hp
        refine (List.count_eq_zero.mpr fun hmem => ?_).symm
        obtain ⟨e, he, hev⟩ := List.mem_map.mp hmem
        have hmem := h.end_mem e he
        rw [hev] at hmem
        exact hv hmem
    · intro e he
      simpa [vertices] using hvertices _ (h.start_mem e he)
    · intro e he
      simpa [vertices] using hvertices _ (h.end_mem e he)

/-- Entering a vertex makes it known. -/
theorem mem_vertices_addVertex (g : Elimination) (v : UUID) : v ∈ (g.addVertex v).vertices := by
  unfold addVertex
  split
  · assumption
  · simp [vertices]

/-- Known vertices stay known. -/
theorem vertices_addVertex_mono (g : Elimination) (v : UUID) {u : UUID} (hu : u ∈ g.vertices) :
    u ∈ (g.addVertex v).vertices := by
  unfold addVertex
  split
  · exact hu
  · simpa [vertices] using Or.inl hu

/-- Entering a vertex adds no edge. -/
@[simp] theorem edges_addVertex (g : Elimination) (v : UUID) :
    (g.addVertex v).edges = g.edges := by
  unfold addVertex
  split <;> rfl

/-- Adding an edge keeps the counts right. -/
theorem Counts.addEdge {g : Elimination} (h : g.Counts) (edge : UUID × UUID) :
    (g.addEdge edge).Counts := by
  let g' := (g.addVertex edge.1).addVertex edge.2
  have h' : g'.Counts := (h.addVertex edge.1).addVertex edge.2
  have hvertices : (g.addEdge edge).vertices = g'.vertices := map_fst_modify _ _ _
  have hstart : edge.1 ∈ g'.vertices := vertices_addVertex_mono _ _ (mem_vertices_addVertex _ _)
  have hend : edge.2 ∈ g'.vertices := mem_vertices_addVertex _ _
  refine ⟨hvertices ▸ h'.nodup, ?_, ?_, ?_⟩
  · intro p hp
    obtain ⟨q, hq, rfl⟩ := List.mem_map.mp hp
    have hcount := h'.indegree_eq q hq
    change _ = indegree (g'.edges ++ [edge]) _
    simp only [indegree, List.map_append, List.count_append, List.map_cons, List.map_nil] at hcount ⊢
    split
    · rename_i heq
      rw [← hcount, heq]
      simp
    · rename_i hne
      rw [← hcount, List.count_cons_of_ne (Ne.symm hne)]
      simp
  all_goals
    intro e he
    rw [hvertices]
    rcases List.mem_append.mp he with he | he
  · exact h'.start_mem e he
  · exact List.mem_singleton.mp he ▸ hstart
  · exact h'.end_mem e he
  · exact List.mem_singleton.mp he ▸ hend

/-- Lowering indegrees along a list of ends subtracts how often each vertex occurs. -/
theorem mem_foldl_uncountEdgeTo (ends : List UUID) (indegrees : List (UUID × ℕ)) (p : UUID × ℕ) :
    p ∈ ends.foldl uncountEdgeTo indegrees →
      ∃ n, (p.1, n) ∈ indegrees ∧ p.2 = n - ends.count p.1 := by
  induction ends generalizing indegrees with
  | nil => exact fun hp => ⟨p.2, hp, by simp⟩
  | cons v ends ih =>
    intro hp
    obtain ⟨n, hn, hcount⟩ := ih _ hp
    obtain ⟨q, hq, hqn⟩ := List.mem_map.mp hn
    split at hqn
    · rename_i hqv
      obtain ⟨hq1, hq2⟩ := Prod.mk.inj hqn
      refine ⟨q.2, hq1 ▸ hq, ?_⟩
      rw [hcount, ← hq2, ← hq1, hqv, List.count_cons_self]
      omega
    · rename_i hqv
      subst hqn
      exact ⟨n, hq, by rw [hcount, List.count_cons_of_ne (Ne.symm hqv)]⟩

/-- Lowering indegrees keeps the vertices. -/
theorem map_fst_foldl_uncountEdgeTo (ends : List UUID) (indegrees : List (UUID × ℕ)) :
    (ends.foldl uncountEdgeTo indegrees).map Prod.fst = indegrees.map Prod.fst := by
  induction ends generalizing indegrees with
  | nil => rfl
  | cons v ends ih => rw [List.foldl_cons, ih]; exact map_fst_modify _ _ _

/-- The vertices left after a removal. -/
theorem vertices_removeOutgoingEdges (g : Elimination) (v : UUID) :
    (g.removeOutgoingEdges v).vertices = g.vertices.filter fun u => u ≠ v := by
  simp only [vertices, removeOutgoingEdges]
  rw [← map_fst_foldl_uncountEdgeTo ((g.edges.filter fun e => e.1 = v).map Prod.snd) g.indegrees,
    List.filter_map]
  rfl

/-- A vertex of indegree zero is the end of no edge. -/
theorem Counts.no_edge_to {g : Elimination} (h : g.Counts) {v : UUID}
    (hv : (v, 0) ∈ g.indegrees) (u : UUID) : (u, v) ∉ g.edges := by
  intro hu
  have hzero : (g.edges.map Prod.snd).count v = 0 := (h.indegree_eq _ hv).symm
  exact List.count_eq_zero.mp hzero (List.mem_map.mpr ⟨_, hu, rfl⟩)

/-- Edges into a vertex either start at the removed vertex or remain. -/
theorem indegree_split (edges : List (UUID × UUID)) (v w : UUID) :
    indegree edges w = ((edges.filter fun e => e.1 = v).map Prod.snd).count w +
      indegree (edges.filter fun e => e.1 ≠ v) w := by
  induction edges with
  | nil => rfl
  | cons e edges ih =>
    unfold indegree at ih ⊢
    by_cases hv : e.1 = v
    · simp only [hv, List.map_cons, List.filter_cons, decide_true, if_true, ne_eq, not_true_eq_false,
        decide_false, Bool.false_eq_true, if_false, List.count_cons, ih]
      omega
    · simp only [hv, List.map_cons, List.filter_cons, decide_true, if_true, ne_eq, not_false_eq_true,
        decide_false, Bool.false_eq_true, if_false, List.count_cons, ih]
      omega

/-- Removing a vertex of indegree zero keeps the counts right. -/
theorem Counts.removeOutgoingEdges {g : Elimination} (h : g.Counts) {v : UUID}
    (hv : (v, 0) ∈ g.indegrees) : (g.removeOutgoingEdges v).Counts := by
  have hvertices := vertices_removeOutgoingEdges g v
  have hstay : ∀ u ∈ g.vertices, u ≠ v → u ∈ (g.removeOutgoingEdges v).vertices := by
    intro u hu huv
    rw [hvertices]
    exact List.mem_filter.mpr ⟨hu, by simpa using huv⟩
  refine ⟨hvertices ▸ h.nodup.filter _, ?_, ?_, ?_⟩
  · intro p hp
    obtain ⟨hp, -⟩ := List.mem_filter.mp hp
    obtain ⟨n, hn, hpn⟩ := mem_foldl_uncountEdgeTo _ _ _ hp
    have hcount : n = indegree g.edges p.1 := h.indegree_eq _ hn
    have hsplit := indegree_split g.edges v p.1
    change p.2 = indegree (g.edges.filter fun e => e.1 ≠ v) p.1
    omega
  · intro e he
    obtain ⟨he, hev⟩ := List.mem_filter.mp he
    exact hstay _ (h.start_mem e he) (by simpa using hev)
  · intro e he
    obtain ⟨hedge, -⟩ := List.mem_filter.mp he
    refine hstay _ (h.end_mem e hedge) fun hev => ?_
    exact h.no_edge_to hv e.1 (hev ▸ hedge)

/-- The first source is a vertex of indegree zero. -/
theorem mem_of_firstSource {g : Elimination} {v : UUID} (h : g.firstSource = some v) :
    (v, 0) ∈ g.indegrees := by
  obtain ⟨p, hp, rfl⟩ := Option.map_eq_some_iff.mp h
  have hzero : p.2 = 0 := by simpa using List.find?_some hp
  rw [← hzero]
  exact List.mem_of_find?_eq_some hp

/-- Each removal shortens the dictionary. -/
theorem length_removeOutgoingEdges_lt (g : Elimination) {v : UUID} (hv : v ∈ g.vertices) :
    (g.removeOutgoingEdges v).indegrees.length < g.indegrees.length := by
  have hlength : ∀ g : Elimination, g.vertices.length = g.indegrees.length :=
    fun g => List.length_map _
  rw [← hlength, ← hlength, vertices_removeOutgoingEdges]
  exact List.length_filter_lt_length_iff_exists.mpr ⟨v, hv, by simp⟩

/-- The loop keeps the counts right, and the graph acyclic or not. -/
theorem Counts.eliminate {rounds : ℕ} {g : Elimination} (h : g.Counts) :
    (eliminate rounds g).Counts ∧
      (EdgeList.Acyclic (eliminate rounds g).edges ↔ EdgeList.Acyclic g.edges) := by
  induction rounds generalizing g with
  | zero => exact ⟨h, Iff.rfl⟩
  | succ rounds ih =>
    rw [Elimination.eliminate]
    split
    · exact ⟨h, Iff.rfl⟩
    · rename_i v hv
      have hzero := mem_of_firstSource hv
      obtain ⟨hcounts, hacyclic⟩ := ih (h.removeOutgoingEdges hzero)
      refine ⟨hcounts, hacyclic.trans ⟨?_, ?_⟩⟩
      · exact EdgeList.acyclic_of_filter_source (h.no_edge_to hzero)
      · exact fun hac => hac.mono fun e he => (List.mem_filter.mp he).1

/-- After as many rounds as there are vertices none of the remaining ones has indegree zero. -/
theorem firstSource_eliminate (rounds : ℕ) (g : Elimination)
    (hrounds : g.indegrees.length ≤ rounds) : (eliminate rounds g).firstSource = none := by
  induction rounds generalizing g with
  | zero =>
    have hnil : g.indegrees = [] := List.length_eq_zero_iff.mp (by omega)
    simp [eliminate, firstSource, hnil]
  | succ rounds ih =>
    rw [eliminate]
    split
    · assumption
    · rename_i v hv
      apply ih
      have hshorter := length_removeOutgoingEdges_lt (v := v) g
        (List.mem_map.mpr ⟨_, mem_of_firstSource hv, rfl⟩)
      omega

/-- With right counts and no source left, the remaining graph is acyclic only if it is empty. -/
theorem Counts.edges_eq_nil_iff {g : Elimination} (h : g.Counts) (hsource : g.firstSource = none) :
    g.edges = [] ↔ EdgeList.Acyclic g.edges := by
  constructor
  · intro hnil
    rw [hnil]
    exact EdgeList.acyclic_nil
  · intro hacyclic
    by_contra hne
    refine EdgeList.not_acyclic_of_no_source hne (fun v w hvw => ?_) hacyclic
    obtain ⟨p, hp, hpv⟩ := List.mem_map.mp (h.start_mem _ hvw)
    have hpos : p.2 ≠ 0 := by
      simp only [firstSource, Option.map_eq_none_iff, List.find?_eq_none] at hsource
      simpa using hsource p hp
    rw [h.indegree_eq p hp, hpv] at hpos
    have hmem : v ∈ g.edges.map Prod.snd := by
      by_contra hv
      exact hpos (List.count_eq_zero.mpr hv)
    obtain ⟨e, he, rfl⟩ := List.mem_map.mp hmem
    exact ⟨e.1, he⟩

/-- A round of the loop: the first vertex of indegree zero is removed, and each edge which starts
there ends at a vertex whose indegree can be looked up. -/
inductive Round (g : Elimination) : Elimination → Prop
  | remove {v : UUID} (source : g.firstSource = some v)
      (known : ∀ e ∈ g.edges, e.1 = v → e.2 ∈ g.vertices) : Round g (g.removeOutgoingEdges v)

/-- With right counts the loop consists of such rounds. -/
theorem Counts.reflTransGen_eliminate {rounds : ℕ} {g : Elimination} (h : g.Counts) :
    Relation.ReflTransGen Round g (Elimination.eliminate rounds g) := by
  induction rounds generalizing g with
  | zero => exact .refl
  | succ rounds ih =>
    rw [Elimination.eliminate]
    split
    · exact .refl
    · rename_i v hv
      have hround : Round g (g.removeOutgoingEdges v) := .remove hv fun e he _ => h.end_mem e he
      exact .head hround (ih (h.removeOutgoingEdges (mem_of_firstSource hv)))

end Elimination

/-- The edge of a link between operators, where an outer end is its own vertex. -/
def Link.edge (link : Link) : UUID × UUID :=
  (link.start.operator.getD link.start.connector.id,
    link.finish.operator.getD link.finish.connector.id)

/-- The validator which accepts links that form no loop. -/
def linksAcyclicDirectedGraph (links : List Link) : Bool :=
  let g := (links.map Link.edge).foldl Elimination.addEdge Elimination.empty
  (Elimination.eliminate g.indegrees.length g).edges = []

namespace Elimination

/-- Adding all edges of a list yields right counts for exactly these edges. -/
theorem counts_foldl_addEdge (edges : List (UUID × UUID)) (g : Elimination) (h : g.Counts) :
    (edges.foldl addEdge g).Counts ∧ (edges.foldl addEdge g).edges = g.edges ++ edges := by
  induction edges generalizing g with
  | nil => exact ⟨h, (List.append_nil _).symm⟩
  | cons e edges ih =>
    obtain ⟨hcounts, hedges⟩ := ih (g.addEdge e) (h.addEdge e)
    refine ⟨hcounts, hedges.trans ?_⟩
    simp [addEdge, countEdgeTo]

end Elimination

/-- The cycle check decides whether the graph of the links is acyclic. -/
theorem linksAcyclicDirectedGraph_iff (links : List Link) :
    linksAcyclicDirectedGraph links = true ↔ EdgeList.Acyclic (links.map Link.edge) := by
  have hempty : Elimination.empty.Counts := ⟨List.nodup_nil, by simp [Elimination.empty],
    by simp [Elimination.empty], by simp [Elimination.empty]⟩
  obtain ⟨hcounts, hedges⟩ :=
    Elimination.counts_foldl_addEdge (links.map Link.edge) Elimination.empty hempty
  simp only [linksAcyclicDirectedGraph, decide_eq_true_eq]
  rw [hcounts.eliminate.1.edges_eq_nil_iff (Elimination.firstSource_eliminate _ _ le_rfl),
    hcounts.eliminate.2, hedges]
  rfl

/-- The loop ends after finitely many rounds, and the links are accepted exactly if nothing is left
then, which is the case exactly if their graph is acyclic. -/
theorem linksAcyclicDirectedGraph_decides (links : List Link) :
    ∃ final, Relation.ReflTransGen Elimination.Round
        ((links.map Link.edge).foldl Elimination.addEdge Elimination.empty) final ∧
      final.firstSource = none ∧ (linksAcyclicDirectedGraph links = true ↔ final.edges = []) ∧
      (linksAcyclicDirectedGraph links = true ↔ EdgeList.Acyclic (links.map Link.edge)) := by
  have hempty : Elimination.empty.Counts := ⟨List.nodup_nil, by simp [Elimination.empty],
    by simp [Elimination.empty], by simp [Elimination.empty]⟩
  obtain ⟨hcounts, -⟩ :=
    Elimination.counts_foldl_addEdge (links.map Link.edge) Elimination.empty hempty
  refine ⟨_, hcounts.reflTransGen_eliminate, Elimination.firstSource_eliminate _ _ le_rfl, ?_,
    linksAcyclicDirectedGraph_iff links⟩
  rw [linksAcyclicDirectedGraph, decide_eq_true_eq]

/-- Links which pass the cycle check still pass it after some of them are removed. -/
theorem linksAcyclicDirectedGraph_mono {links links' : List Link}
    (hsub : ∀ link ∈ links.map Link.edge, link ∈ links'.map Link.edge)
    (h : linksAcyclicDirectedGraph links' = true) : linksAcyclicDirectedGraph links = true :=
  (linksAcyclicDirectedGraph_iff links).mpr
    (((linksAcyclicDirectedGraph_iff links').mp h).mono hsub)

end HetidaDesigner
