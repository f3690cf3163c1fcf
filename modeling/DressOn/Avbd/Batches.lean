import DressOn.Avbd.Coloring

/-!
# Colour batches

Both colourings sort the vertices by colour. `Batches` is what that leaves: the
vertices of colour 0, then those of colour 1, and so on, with the offsets in
between. A colouring determines it, so equal colours give equal batches.
-/

namespace DressOn.Avbd

open CountingSort

/-- `out` lists the first `nV` vertices by colour. -/
structure Batches (color : Nat → Nat) (nV nc : Nat) (out : Coloring) : Prop where
  inRange : ∀ v ∈ List.range nV, color v < nc
  vertPerm : out.vertPerm = ((List.range nc).flatMap (bucket color (List.range nV))).toArray
  size : out.colorOffsets.size = nc + 1
  offsets : IsOffsets color (List.range nV) nc out.colorOffsets

namespace Batches

variable {color : Nat → Nat} {nV nc : Nat} {out : Coloring} (batches : Batches color nV nc out)
include batches

/-- The vertices are permuted. -/
theorem perm : out.vertPerm.toList.Perm (List.range nV) := by
  rw [batches.vertPerm]
  exact perm_flatMap_bucket_of_lt color batches.inRange

/-- Every vertex has its place. -/
theorem size_vertPerm : out.vertPerm.size = nV := by
  rw [← Array.length_toList, batches.perm.length_eq, List.length_range]

/-- The first batch starts at the first vertex. -/
theorem offsets_zero : out.colorOffsets[0]! = 0 := by
  rw [batches.offsets 0 (Nat.zero_le _), total_zero]

/-- The last batch ends at the last vertex. -/
theorem offsets_last : out.colorOffsets[nc]! = nV := by
  rw [batches.offsets nc le_rfl, total_bucket_length color batches.inRange, List.length_range]

/-- A batch is as long as its colour has vertices. -/
theorem offsets_succ {k : Nat} (inside : k < nc) :
    out.colorOffsets[k + 1]! =
      out.colorOffsets[k]! + (bucket color (List.range nV) k).length := by
  rw [batches.offsets (k + 1) inside, batches.offsets k (by omega), total_succ]

/-- Batches follow each other. -/
theorem offsets_mono {k : Nat} (inside : k < nc) :
    out.colorOffsets[k]! ≤ out.colorOffsets[k + 1]! := by
  rw [batches.offsets_succ inside]
  omega

/-- Slice `k` of the permutation is the vertices of colour `k`, in order. -/
theorem slice {k : Nat} (inside : k < nc) :
    (List.range' out.colorOffsets[k]!
        (out.colorOffsets[k + 1]! - out.colorOffsets[k]!)).map (out.vertPerm[·]!) =
      bucket color (List.range nV) k := by
  rw [batches.offsets_succ inside, Nat.add_sub_cancel_left, batches.offsets k (by omega),
    batches.vertPerm]
  exact map_range'_flatMap_range (bucket color (List.range nV)) inside

/-- A vertex of slice `k` has colour `k`. -/
theorem color_vertPerm {k i : Nat} (inside : k < nc) (low : out.colorOffsets[k]! ≤ i)
    (high : i < out.colorOffsets[k + 1]!) :
    out.vertPerm[i]! < nV ∧ color out.vertPerm[i]! = k := by
  have member : out.vertPerm[i]! ∈ bucket color (List.range nV) k := by
    rw [← batches.slice inside]
    exact List.mem_map.mpr ⟨i, List.mem_range'_1.mpr ⟨low, by omega⟩, rfl⟩
  simpa [bucket] using member

/-- Equal colours sort into equal batches. -/
theorem unique {other : Coloring} (batches' : Batches color nV nc other) : out = other := by
  have perm : out.vertPerm = other.vertPerm := batches.vertPerm.trans batches'.vertPerm.symm
  have offsets : out.colorOffsets = other.colorOffsets := by
    refine Array.ext (batches.size.trans batches'.size.symm) fun k left right => ?_
    have inside : k ≤ nc := by
      have size := batches.size
      omega
    rw [← getElem!_pos out.colorOffsets k left, ← getElem!_pos other.colorOffsets k right,
      batches.offsets k inside, batches'.offsets k inside]
  obtain ⟨_, _⟩ := out
  obtain ⟨_, _⟩ := other
  exact congrArg₂ Coloring.mk perm offsets

end Batches

/-- A scatter of the vertices by colour, with counted offsets, gives the batches. -/
theorem batches_of_scatter {color : Nat → Nat} {nV nc : Nat}
    (inRange : ∀ v ∈ List.range nV, color v < nc) :
    let offsets := prefixSums nc (countKeys nc ((List.range nV).map color))
    Batches color nV nc
      ⟨(scatter offsets color id (List.range nV)
          ⟨Array.replicate nV 0, Array.replicate nc 0⟩).out, offsets⟩ := by
  intro offsets
  have isOffsets : IsOffsets color (List.range nV) nc offsets := isOffsets_prefixSums color _ nc
  have last : offsets[nc]! = nV := by
    rw [isOffsets nc le_rfl, total_bucket_length color inRange, List.length_range]
  have out := scatter_out isOffsets inRange id 0
  rw [last] at out
  exact ⟨inRange, by simpa using out, size_prefixSums _ _, isOffsets⟩

section Solver

/-- An array is the list of its cells. -/
theorem toList_eq_map_range {β : Type*} [Inhabited β] (a : Array β) :
    a.toList = (List.range a.size).map (a[·]!) := by
  refine List.ext_getElem (by simp) fun i left right => ?_
  have inside : i < a.size := by simpa using left
  simp [inside]

variable {color : Array Int} {nV : Nat}

/-- The colours in use are counted. -/
theorem colorCount_eq (size : color.size = nV) (known : ∀ v < nV, color[v]! = colorOf color v) :
    colorCount color =
      if colorsUsed (colorOf color) nV = 0 then 1 else colorsUsed (colorOf color) nV := by
  have fold : color.toList.foldl (fun nc c => if (c + 1).toNat > nc then (c + 1).toNat else nc) 0 =
      colorsUsed (colorOf color) nV := by
    rw [toList_eq_map_range, size, List.foldl_map]
    refine List.foldl_ext _ _ _ fun nc v member => ?_
    have next : (color[v]! + 1).toNat = colorOf color v + 1 := by
      rw [known v (List.mem_range.mp member)]
      omega
    rw [next]
  rw [← fold]
  simp only [colorCount, ← apply_ite, Array.forIn_pure_yield_eq_foldl, pure_bind, Id.run_pure,
    Array.foldl_toList]

/-- The vertices are counted by colour. -/
theorem colorCounts_eq (size : color.size = nV) (nc : Nat) :
    colorCounts nc color = countKeys nc ((List.range nV).map (colorOf color)) := by
  have fold : colorCounts nc color =
      color.toList.foldl (fun counts c => counts.modify c.toNat (· + 1)) (Array.replicate nc 0) := by
    simp [colorCounts]
  rw [fold, toList_eq_map_range, size, List.foldl_map, countKeys, List.foldl_map]
  rfl

/-- The vertices are scattered by colour. -/
theorem permPass_eq (nV nc : Nat) (color : Array Int) (offsets : Array Nat) :
    permPass nV nc color offsets =
      (scatter offsets (colorOf color) id (List.range nV)
        ⟨Array.replicate nV 0, Array.replicate nc 0⟩).out := by
  let start : Scatter Nat := ⟨Array.replicate nV 0, Array.replicate nc 0⟩
  let place (s : Array Nat × Array Nat) (v : Nat) : Array Nat × Array Nat :=
    (s.1.modify (colorOf color v) (· + 1),
      s.2.set! (offsets[colorOf color v]! + s.1[colorOf color v]!) v)
  have fold : (List.range nV).foldl place (start.cursor, start.out) =
      (fun s : Scatter Nat => (s.cursor, s.out))
        ((List.range nV).foldl (scatterOne offsets (colorOf color) id) start) :=
    List.foldl_hom (fun s : Scatter Nat => (s.cursor, s.out)) fun _ _ => rfl
  simp only [permPass, Std.Legacy.Range.forIn_eq_forIn_range', List.forIn_pure_yield_eq_foldl,
    bind_pure_comp, map_pure, Id.run_pure, Std.Legacy.Range.size, Nat.sub_zero,
    Nat.add_sub_cancel, Nat.div_one, ← List.range_eq_range']
  exact congrArg Prod.snd fold

end Solver

section Agreement

open Cloth.Coloring

variable {nV : Nat} {s : Stencils}

/-- Two different vertices that a constraint shares. -/
def Near (cons : List (List Nat)) (u v : Nat) : Prop := u ≠ v ∧ Shares cons u v

/-- The colours the solver assigns. -/
def solverColor (nV : Nat) (s : Stencils) : Nat → Nat := colorOf (colorPass nV (adjacencyPass nV s))

/-- What the solver's colouring loop leaves on a mesh. -/
theorem solverColor_spec (inRange : s.InRange nV) :
    (colorPass nV (adjacencyPass nV s)).size = nV ∧
      (∀ v < nV, (colorPass nV (adjacencyPass nV s))[v]! = solverColor nV s v) ∧
      IsGreedy (Near s.constraints) nV (solverColor nV s) := by
  refine colorPass_spec nV (adjacencyPass nV s) (Near s.constraints)
    (fun u v _ => mem_adjacencyPass inRange) (fun v near => near.1 rfl) ?_
  rintro u v ⟨-, inc, listed, inU, -⟩
  exact inRange inc listed u inU

/-- `greedy_coloring` sorts the vertices into first-fit batches. -/
theorem greedyColoring_batches (pos : 1 ≤ nV) (inRange : s.InRange nV) :
    Batches (solverColor nV s) nV (colorsUsed (solverColor nV s) nV) (greedyColoring nV s) := by
  obtain ⟨size, known, -⟩ := solverColor_spec inRange
  have below : ∀ v ∈ List.range nV, solverColor nV s v < colorsUsed (solverColor nV s) nV :=
    fun v member => lt_colorsUsed _ (List.mem_range.mp member)
  have some_ : colorsUsed (solverColor nV s) nV ≠ 0 := by
    have first := below 0 (List.mem_range.mpr pos)
    omega
  have count : colorCount (colorPass nV (adjacencyPass nV s)) =
      colorsUsed (solverColor nV s) nV := by
    rw [colorCount_eq size known]
    exact if_neg some_
  unfold greedyColoring
  simp only [count, offsetsPass_eq, colorCounts_eq size, permPass_eq]
  exact batches_of_scatter below

/-- The Lean colouring counts by colour too. -/
theorem countLoop_eq (nV nc : Nat) (color : Array Nat) :
    countLoop nV nc color = countKeys nc ((List.range nV).map (color[·]!)) := by
  simp [countLoop, countKeys, List.range_eq_range', List.foldl_map]

/-- The Lean colouring scatters by colour too. -/
theorem permLoop_eq (nV nc : Nat) (color offsets : Array Nat) :
    permLoop nV nc color offsets =
      (scatter offsets (color[·]!) id (List.range nV)
        ⟨Array.replicate nV 0, Array.replicate nc 0⟩).out := by
  let start : Scatter Nat := ⟨Array.replicate nV 0, Array.replicate nc 0⟩
  let place (s : Array Nat × Array Nat) (v : Nat) : Array Nat × Array Nat :=
    (s.1.set! (offsets[color[v]!]! + s.2[color[v]!]!) v, s.2.modify color[v]! (· + 1))
  have fold : (List.range nV).foldl place (start.out, start.cursor) =
      (fun s : Scatter Nat => (s.out, s.cursor))
        ((List.range nV).foldl (scatterOne offsets (color[·]!) id) start) :=
    List.foldl_hom (fun s : Scatter Nat => (s.out, s.cursor)) fun _ _ => rfl
  simp only [permLoop, Std.Legacy.Range.forIn_eq_forIn_range', List.forIn_pure_yield_eq_foldl,
    bind_pure_comp, map_pure, Id.run_pure, Std.Legacy.Range.size, Nat.sub_zero,
    Nat.add_sub_cancel, Nat.div_one, ← List.range_eq_range']
  exact congrArg Prod.fst fold

/-- The solver and the Lean `assignColors` give the same colours and batches. -/
theorem assignColors_eq (pos : 1 ≤ nV) (inRange : s.InRange nV) :
    let lean := assignColors nV s.constraints
    (∀ v < nV, lean.vertColor[v]! = solverColor nV s v) ∧
      (⟨lean.vertPerm, lean.colorOffsets⟩ : Coloring) = greedyColoring nV s := by
  obtain ⟨-, leanGreedy, count⟩ := colorLoop_spec nV (buildAdj nV s.constraints)
    (Near s.constraints) fun u v vBound below => by
      rw [mem_buildAdj vBound below.ne, Near, and_iff_right below.ne]
  obtain ⟨-, -, greedy⟩ := solverColor_spec inRange
  have same : ∀ v < nV, (colorLoop nV (buildAdj nV s.constraints)).1[v]! = solverColor nV s v :=
    leanGreedy.unique greedy
  refine ⟨same, ?_⟩
  have number := count.trans (colorsUsed_congr same)
  have below : ∀ v ∈ List.range nV,
      (colorLoop nV (buildAdj nV s.constraints)).1[v]! < colorsUsed (solverColor nV s) nV := by
    intro v member
    rw [same v (List.mem_range.mp member)]
    exact lt_colorsUsed _ (List.mem_range.mp member)
  have sorted := batches_of_scatter below
  have buckets : bucket (fun v => (colorLoop nV (buildAdj nV s.constraints)).1[v]!)
      (List.range nV) = bucket (solverColor nV s) (List.range nV) := by
    funext k
    refine List.filter_congr fun v member => ?_
    simp only [same v (List.mem_range.mp member)]
  have recolored : Batches (solverColor nV s) nV (colorsUsed (solverColor nV s) nV) _ :=
    ⟨fun v member => lt_colorsUsed _ (List.mem_range.mp member), buckets ▸ sorted.vertPerm,
      sorted.size, fun b low => by rw [sorted.offsets b low, buckets]⟩
  refine Eq.trans ?_ (recolored.unique (greedyColoring_batches pos inRange))
  simp only [assignColors, number, offsetsPass_eq, countLoop_eq, permLoop_eq]

/-- No two different vertices of one batch share a constraint. -/
theorem not_shares_of_batch (pos : 1 ≤ nV) (inRange : s.InRange nV) {k i j : Nat}
    (batch : k + 1 < (greedyColoring nV s).colorOffsets.size)
    (iLow : (greedyColoring nV s).colorOffsets[k]! ≤ i)
    (iHigh : i < (greedyColoring nV s).colorOffsets[k + 1]!)
    (jLow : (greedyColoring nV s).colorOffsets[k]! ≤ j)
    (jHigh : j < (greedyColoring nV s).colorOffsets[k + 1]!)
    (distinct : (greedyColoring nV s).vertPerm[i]! ≠ (greedyColoring nV s).vertPerm[j]!) :
    ¬ Shares s.constraints (greedyColoring nV s).vertPerm[i]! (greedyColoring nV s).vertPerm[j]! := by
  intro shares
  have batches := greedyColoring_batches pos inRange
  have inside : k < colorsUsed (solverColor nV s) nV := by
    have size := batches.size
    omega
  obtain ⟨iBound, iColor⟩ := batches.color_vertPerm inside iLow iHigh
  obtain ⟨jBound, jColor⟩ := batches.color_vertPerm inside jLow jHigh
  obtain ⟨-, -, greedy⟩ := solverColor_spec inRange
  refine greedy.ne_of_near (fun near => ⟨near.1.symm, near.2.symm⟩) distinct iBound jBound
    ⟨distinct, shares⟩ (iColor.trans jColor.symm)

end Agreement

end DressOn.Avbd
