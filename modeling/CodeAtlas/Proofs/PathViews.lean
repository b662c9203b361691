import CodeAtlas.Proofs.Walk
import Mathlib.Data.List.Perm.Subperm
import Mathlib.Data.List.Induction

/-!
# Views of a path

A path shows its elements in several lists and picks out some of them. The lists are made of the
same edges in different ways, and agree with each other. That each edge leads to where the one before
it leaves from is what keeps the elements few and ties the last of them to the edges in front.

## Main definitions

* `Path.idxOf_firstOccurrences`: the elements of a path come in the order of their first places.
* `Path.Connected.length_nodes_le`: a path has one element more than edges, at most.
* `Path.sameKinds_iff`: paths are compared by the lists of their relations.
* `Path.views_consistent`: what the views of a path have to do with each other.
-/
namespace CodeAtlas.Path

variable {p : Path} {e older newest oldest : Edge} {edges before rest : List Edge}
  {es : List Element} {x : Element}

/-! ## First occurrences -/

/-- An element is found behind the others, unless it has been found already. -/
theorem firstOccurrences_concat (es : List Element) (x : Element) : firstOccurrences (es ++ [x])
    = if x ∈ firstOccurrences es then firstOccurrences es else firstOccurrences es ++ [x] := by
  rw [firstOccurrences, List.foldl_append]
  rfl

theorem mem_firstOccurrences : x ∈ firstOccurrences es ↔ x ∈ es := by
  induction es using List.reverseRecOn with
  | nil => rfl
  | append_singleton es last ih =>
    rw [firstOccurrences_concat]
    by_cases hlast : last ∈ firstOccurrences es
    · rw [if_pos hlast, ih, List.mem_append, List.mem_singleton]
      constructor
      · intro h
        exact .inl h
      · rintro (h | rfl)
        · exact h
        · simpa [ih] using hlast
    · simp [if_neg hlast, ih]

/-- Elements are found in the order of their first places. -/
theorem idxOf_firstOccurrences (es : List Element) :
    (firstOccurrences es).Pairwise fun x y => es.idxOf x < es.idxOf y := by
  induction es using List.reverseRecOn with
  | nil => exact List.Pairwise.nil
  | append_singleton es last ih =>
    -- what has been found so far has the same place in the longer list
    have hplace : ∀ x ∈ firstOccurrences es, (es ++ [last]).idxOf x = es.idxOf x := fun x hx =>
      List.idxOf_append_of_mem (mem_firstOccurrences.mp hx)
    have hold : (firstOccurrences es).Pairwise
        fun x y => (es ++ [last]).idxOf x < (es ++ [last]).idxOf y := by
      refine ih.imp_of_mem ?_
      intro x y hx hy hlt
      rwa [hplace x hx, hplace y hy]
    rw [firstOccurrences_concat]
    by_cases hlast : last ∈ firstOccurrences es
    · rwa [if_pos hlast]
    · rw [if_neg hlast]
      refine List.pairwise_append.mpr ⟨hold, List.pairwise_singleton _ _, ?_⟩
      intro x hx y hy
      have hnew : last ∉ es := mt mem_firstOccurrences.mpr hlast
      have hlt : es.idxOf x < es.length := List.idxOf_lt_length_of_mem (mem_firstOccurrences.mp hx)
      rw [List.mem_singleton.mp hy, hplace x hx, List.idxOf_append_of_notMem hnew]
      omega

theorem nodup_firstOccurrences (es : List Element) : (firstOccurrences es).Nodup :=
  (idxOf_firstOccurrences es).imp fun hlt heq => by simp [heq] at hlt

/-! ## Elements of edges -/

theorem mem_endpoints : x ∈ endpoints edges ↔ ∃ e ∈ edges, x = e.source ∨ x = e.target := by
  simp [endpoints]

theorem length_endpoints : (endpoints edges).length = 2 * edges.length := by
  induction edges with
  | nil => rfl
  | cons e edges ih =>
    have hcons : endpoints (e :: edges) = e.source :: e.target :: endpoints edges := rfl
    rw [hcons, List.length_cons, List.length_cons, ih, List.length_cons]
    omega

/-- In a path all edges but the oldest lead to where another one leaves from. -/
theorem exists_source_of_isChain
    (h : (oldest :: rest).IsChain fun older newer => newer.target = older.source) (he : e ∈ rest) :
    ∃ f ∈ oldest :: rest, e.target = f.source := by
  induction rest generalizing oldest with
  | nil => simp at he
  | cons next rest ih =>
    obtain ⟨hjoin, hrest⟩ := List.isChain_cons_cons.mp h
    rcases List.mem_cons.mp he with rfl | he
    · exact ⟨oldest, List.mem_cons_self, hjoin⟩
    · obtain ⟨f, hf, hsource⟩ := ih hrest he
      exact ⟨f, List.mem_cons_of_mem _ hf, hsource⟩

/-- **A path with edges has one element more than edges, at most**: where the oldest edge leads, and
where each of the edges leaves from. -/
theorem Connected.length_nodes_le (h : p.Connected) : p.nodes.length ≤ p.edges.length + 1 := by
  unfold nodes
  cases hedges : p.edges with
  | nil => simp [endpoints, firstOccurrences]
  | cons oldest rest =>
    rw [Connected, hedges] at h
    have hsubset : firstOccurrences (endpoints (oldest :: rest)) ⊆
        oldest.target :: (oldest :: rest).map Edge.source := by
      intro x hx
      obtain ⟨e, he, hends⟩ := mem_endpoints.mp (mem_firstOccurrences.mp hx)
      rcases hends with rfl | rfl
      · exact List.mem_cons_of_mem _ (List.mem_map_of_mem he)
      · rcases List.mem_cons.mp he with rfl | he
        · exact List.mem_cons_self
        · obtain ⟨f, hf, hsource⟩ := exists_source_of_isChain h he
          rw [hsource]
          exact List.mem_cons_of_mem _ (List.mem_map_of_mem hf)
    have hlength := ((nodup_firstOccurrences _).subperm hsubset).length_le
    simpa using hlength

/-- The last element of a path with several edges is where the second newest leaves from. -/
theorem Connected.last_eq (h : p.Connected) (hedges : p.edges = before ++ [older, newest]) :
    p.last = .ok older.source := by
  rw [Connected, hedges] at h
  have hjoin : newest.target = older.source :=
    (List.isChain_cons_cons.mp (List.isChain_append.mp h).2.1).1
  rw [last, hedges, List.getLast?_append]
  simp [hjoin]

/-! ## Kinds of edges -/

/-- Edges in pairs, with as many on either side, are of the same relations just if the lists of their
relations are the same. -/
theorem zip_all_relation_iff {es fs : List Edge} (hlength : es.length = fs.length) :
    ((es.zip fs).all fun (a, b) => a.relation = b.relation) = true ↔
      es.map Edge.relation = fs.map Edge.relation := by
  induction es generalizing fs with
  | nil =>
    rw [List.eq_nil_of_length_eq_zero hlength.symm]
    simp
  | cons a es ih =>
    cases fs with
    | nil => cases hlength
    | cons b fs =>
      have hrest := ih (Nat.succ.inj hlength)
      simp only [List.zip_cons_cons, List.all_cons, Bool.and_eq_true, decide_eq_true_eq,
        List.map_cons, List.cons.injEq, hrest]

/-- **Two paths are compared by the lists of their relations.** Were their lengths not compared,
a path would be like each of its beginnings. -/
theorem sameKinds_iff {p q : Path} : p.sameKinds q = true ↔ p.kinds = q.kinds := by
  rw [sameKinds, Bool.and_eq_true, decide_eq_true_eq]
  constructor
  · rintro ⟨hlength, hall⟩
    exact (zip_all_relation_iff hlength).mp hall
  · intro h
    have hlength : p.edges.length = q.edges.length := by
      simpa [kinds] using congrArg List.length h
    exact ⟨hlength, (zip_all_relation_iff hlength).mpr h⟩

/-! ## All views -/

/-- **The views of a path agree with each other.** Let a path have edges. Its nodes are the elements
of its edges, each once, in the order in which they come first if the edges are gone through with
the source of each before its target. There is one more of them than edges at most. The ordered nodes
are two for each edge and one more, and begin with the first element twice; what is behind that are
the tail nodes, and the elements of the path are its top and the tail nodes. The last element is
where a single edge leads, and otherwise where the second newest edge leaves from. Any two paths
follow the same relations if and only if their edges do at each place. -/
theorem views_consistent (es : List Edge) (h : (({} : Path).pushAll es).edges ≠ []) :
    let p : Path := ({} : Path).pushAll es
    let replay := p.edges.flatMap fun e => [e.source, e.target]
    (p.nodes.Nodup ∧ (∀ x, x ∈ p.nodes ↔ ∃ e ∈ p.edges, x = e.source ∨ x = e.target) ∧
      (p.nodes.Pairwise fun x y => replay.idxOf x < replay.idxOf y) ∧
      p.nodes.length ≤ p.length + 1) ∧
    (∃ first top, p.first = .ok first ∧ p.top = .ok top ∧
      p.orderedNodes.length = 2 * p.length + 1 ∧
      p.orderedNodes = first :: first :: p.tailNodes ∧ p.elements = .ok (top :: p.tailNodes)) ∧
    (∀ only, p.edges = [only] → p.last = .ok only.target) ∧
    (∀ before older newest, p.edges = before ++ [older, newest] → p.last = .ok older.source) ∧
    ∀ q r : Path, q.sameKinds r = true ↔
      ∀ i : Nat, q.edges[i]?.map Edge.relation = r.edges[i]?.map Edge.relation := by
  intro p replay
  have hconnected : p.Connected := connected_empty.pushAll es
  refine ⟨⟨nodup_firstOccurrences _, ?_, idxOf_firstOccurrences replay,
    hconnected.length_nodes_le⟩, ?_, ?_, ?_, ?_⟩
  · intro x
    exact mem_firstOccurrences.trans mem_endpoints
  · obtain ⟨oldest, rest, hedges⟩ := List.exists_cons_of_ne_nil h
    have hedges : p.edges = oldest :: rest := hedges
    have hordered : p.orderedNodes = oldest.source :: endpoints p.edges := by
      simp [orderedNodes, hedges]
    have htail : p.tailNodes = oldest.target :: endpoints rest := by simp [tailNodes, hedges]
    have holdest : p.edges.head? = some oldest := by simp [hedges]
    obtain ⟨top, htop, -⟩ := hconnected.walk holdest
    refine ⟨oldest.source, top, by simp [first, hedges], htop, ?_, ?_, ?_⟩
    · rw [hordered, List.length_cons, length_endpoints]
      rfl
    · rw [hordered, htail, hedges]
      rfl
    · rw [elements, htop]
      rfl
  · intro only honly
    simp [last, honly]
  · intro before older newest hedges
    exact hconnected.last_eq hedges
  · intro q r
    have hkinds : ∀ (t : Path) (i : Nat), t.kinds[i]? = t.edges[i]?.map Edge.relation := fun t i =>
      List.getElem?_map
    rw [sameKinds_iff, List.ext_getElem?_iff]
    simp only [hkinds]

/-- Calls that lead back to where they come from. -/
def mutualCalls : List Edge :=
  [⟨relay, ⟨.calls, false⟩, callee⟩, ⟨caller, ⟨.calls, false⟩, relay⟩,
    ⟨relay, ⟨.calls, false⟩, caller⟩]

/-- The method in the middle is listed once, and its callee before its caller. -/
theorem views_consistent_mutual :
    (({} : Path).pushAll mutualCalls).nodes = [relay, callee, caller] ∧
      (({} : Path).pushAll mutualCalls).nodes.length
        ≤ (({} : Path).pushAll mutualCalls).length + 1 ∧
      (({} : Path).pushAll mutualCalls).last = .ok caller := by
  have hedges : (({} : Path).pushAll mutualCalls).edges = mutualCalls := by decide +kernel
  obtain ⟨⟨-, -, -, hlength⟩, -, -, hlast, -⟩ :=
    views_consistent mutualCalls (by rw [hedges]; exact List.cons_ne_nil _ _)
  refine ⟨by decide +kernel, hlength, ?_⟩
  exact hlast (mutualCalls.take 1) ⟨caller, ⟨.calls, false⟩, relay⟩
    ⟨relay, ⟨.calls, false⟩, caller⟩ (by rw [hedges]; rfl)

end CodeAtlas.Path
