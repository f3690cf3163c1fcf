import DressOn.Lib.CountingSort
import DressOn.Avbd.Topology

/-!
# The constraint adjacency is complete and exact

`buildCsr` is a counting sort of the incidences `(c, r)` by the vertex they
name. Its rows, its offsets and its equality with the Lean `CsrAdj.build` all
follow from that one reading, `buildCsr_eq`.
-/

namespace DressOn.Avbd

open CountingSort

/-- Every (constraint, role) pair, constraint by constraint. -/
def incidences (nCon K : Nat) : List (Nat × Nat) :=
  (List.range nCon).flatMap fun c => (List.range K).map fun r => (c, r)

/-- The vertex an incidence names. -/
def vertexOf (K : Nat) (conIdx : Array Nat) (incidence : Nat × Nat) : Nat :=
  conIdx[K * incidence.1 + incidence.2]!

/-- An incidence is a constraint and one of its roles. -/
theorem mem_incidences {nCon K c r : Nat} : (c, r) ∈ incidences nCon K ↔ c < nCon ∧ r < K := by
  simp [incidences]

/-- There are as many incidences as roles. -/
theorem length_incidences (nCon K : Nat) : (incidences nCon K).length = K * nCon := by
  simp [incidences, List.length_flatMap, Nat.mul_comm]

/-- Incidences come in increasing order of constraint, then of role. -/
theorem pairwise_incidences (nCon K : Nat) :
    (incidences nCon K).Pairwise fun a b => a.1 < b.1 ∨ a.1 = b.1 ∧ a.2 < b.2 := by
  unfold incidences
  rw [List.pairwise_flatMap]
  constructor
  · intro c _
    rw [List.pairwise_map]
    exact List.pairwise_lt_range.imp fun lower => Or.inr ⟨rfl, lower⟩
  · refine List.pairwise_lt_range.imp fun {c d} lower => ?_
    intro a inRow b inLater
    obtain ⟨_, _, rfl⟩ := List.mem_map.mp inRow
    obtain ⟨_, _, rfl⟩ := List.mem_map.mp inLater
    exact Or.inl lower

/-- The offsets are the prefix sums of the counts. -/
theorem offsetsPass_eq (n : Nat) (counts : Array Nat) : offsetsPass n counts = prefixSums n counts := by
  simp [offsetsPass, prefixSums, List.range_eq_range']

/-- The first pass counts the incidences by vertex. -/
theorem csrCounts_eq (nV nCon K : Nat) (conIdx : Array Nat) :
    csrCounts nV nCon K conIdx =
      countKeys nV ((incidences nCon K).map (vertexOf K conIdx)) := by
  simp [csrCounts, countKeys, incidences, vertexOf, List.range_eq_range', List.foldl_flatMap,
    List.foldl_map, List.map_flatMap]

/-- The second pass scatters the incidences by vertex. -/
theorem csrScatter_eq (nV nCon K : Nat) (conIdx offsets : Array Nat) :
    csrScatter nV nCon K conIdx offsets =
      let start : Scatter Nat :=
        ⟨Array.replicate offsets[nV]! 0, Array.replicate nV 0⟩
      ((scatter offsets (vertexOf K conIdx) Prod.fst (incidences nCon K) start).out,
        (scatter offsets (vertexOf K conIdx) Prod.snd (incidences nCon K) start).out) := by
  have pair := scatter_pair offsets (vertexOf K conIdx) Prod.fst Prod.snd (incidences nCon K)
    (Array.replicate offsets[nV]! 0) (Array.replicate offsets[nV]! 0) (Array.replicate nV 0)
  simp only [incidences, List.foldl_flatMap, List.foldl_map, vertexOf] at pair
  simp only [csrScatter, Std.Legacy.Range.forIn_eq_forIn_range', List.forIn_pure_yield_eq_foldl,
    bind_pure_comp, map_pure, Id.run_pure, Std.Legacy.Range.size, Nat.sub_zero,
    Nat.add_sub_cancel, Nat.div_one, ← List.range_eq_range']
  have outer := congrArg (fun s : Array Nat × Array Nat × Array Nat => (s.1, s.2.1)) pair
  exact outer

/-- The offsets a placement of the incidences into `nV` rows needs. -/
theorem isOffsets_csr (nV nCon K : Nat) (conIdx : Array Nat) :
    IsOffsets (vertexOf K conIdx) (incidences nCon K) nV (buildCsr nV nCon K conIdx).offsets := by
  simp only [buildCsr, offsetsPass_eq, csrCounts_eq]
  exact isOffsets_prefixSums _ _ _

section Rows

variable {nV nCon K : Nat} {conIdx : Array Nat}

/-- The incidences of one vertex, in increasing order. -/
abbrev rowOf (nCon K : Nat) (conIdx : Array Nat) (v : Nat) : List (Nat × Nat) :=
  bucket (vertexOf K conIdx) (incidences nCon K) v

/-- A row has the incidences of its vertex. -/
theorem mem_rowOf {v c r : Nat} :
    (c, r) ∈ rowOf nCon K conIdx v ↔ c < nCon ∧ r < K ∧ conIdx[K * c + r]! = v := by
  simp [bucket, mem_incidences, vertexOf, and_assoc]

/-- A row is in order of constraint, then of role. -/
theorem pairwise_rowOf (v : Nat) :
    (rowOf nCon K conIdx v).Pairwise fun a b => a.1 < b.1 ∨ a.1 = b.1 ∧ a.2 < b.2 :=
  (pairwise_incidences nCon K).filter _

/-- A row has no incidence twice. -/
theorem nodup_rowOf (v : Nat) : (rowOf nCon K conIdx v).Nodup :=
  (pairwise_rowOf v).imp fun {a b} lower same => by subst same; omega

variable (inRange : ∀ c < nCon, ∀ r < K, conIdx[K * c + r]! < nV)
include inRange

/-- An incidence is of a vertex. -/
theorem vertexOf_lt : ∀ item ∈ incidences nCon K, vertexOf K conIdx item < nV := by
  rintro ⟨c, r⟩ member
  obtain ⟨cBound, rBound⟩ := mem_incidences.mp member
  exact inRange c cBound r rBound

/-- The entries are the rows of all vertices, one after another. -/
theorem buildCsr_entries :
    (buildCsr nV nCon K conIdx).idxArr =
        ((List.range nV).flatMap fun v => (rowOf nCon K conIdx v).map Prod.fst).toArray ∧
      (buildCsr nV nCon K conIdx).roleArr =
        ((List.range nV).flatMap fun v => (rowOf nCon K conIdx v).map Prod.snd).toArray := by
  have isOffsets := isOffsets_csr nV nCon K conIdx
  have entries := csrScatter_eq nV nCon K conIdx (buildCsr nV nCon K conIdx).offsets
  have bound := vertexOf_lt inRange
  constructor
  · exact (congrArg Prod.fst entries).trans (scatter_out isOffsets bound Prod.fst 0)
  · exact (congrArg Prod.snd entries).trans (scatter_out isOffsets bound Prod.snd 0)

/-- What a gather kernel reads for a vertex is that vertex's incidences. -/
theorem row_buildCsr {v : Nat} (vertex : v < nV) :
    (buildCsr nV nCon K conIdx).row v = rowOf nCon K conIdx v := by
  have isOffsets := isOffsets_csr nV nCon K conIdx
  obtain ⟨idx, role⟩ := buildCsr_entries inRange
  have first := map_range'_flatMap_range (fun v => (rowOf nCon K conIdx v).map Prod.fst) vertex
  have second := map_range'_flatMap_range (fun v => (rowOf nCon K conIdx v).map Prod.snd) vertex
  simp only [List.length_map] at first second
  have width : (buildCsr nV nCon K conIdx).offsets[v + 1]! -
      (buildCsr nV nCon K conIdx).offsets[v]! = (rowOf nCon K conIdx v).length := by
    rw [isOffsets (v + 1) (by omega), isOffsets v (by omega), total_succ, Nat.add_sub_cancel_left]
  unfold Csr.row
  rw [width, isOffsets v (by omega), idx, role, ← List.zip_map', first, second, List.zip_map']
  simp

/-- The rows have all the incidences together. -/
theorem total_rows : total (fun v => (rowOf nCon K conIdx v).length) nV = K * nCon := by
  rw [total_bucket_length _ (vertexOf_lt inRange), length_incidences]

end Rows

/-- A loop that carries its own index in a fourth variable is a fold over the
indexed list. -/
theorem foldl_index {ι A B C : Type*} (place : A → B → C → Nat → ι → A × B × C) (items : List ι)
    (a : A) (b : B) (c : C) (i : Nat) :
    items.foldl (fun s item =>
        ((place s.1 s.2.1 s.2.2.1 s.2.2.2 item).1, (place s.1 s.2.1 s.2.2.1 s.2.2.2 item).2.1,
          (place s.1 s.2.1 s.2.2.1 s.2.2.2 item).2.2, s.2.2.2 + 1)) (a, b, c, i) =
      let t := (items.zipIdx i).foldl (fun s item => place s.1 s.2.1 s.2.2 item.2 item.1) (a, b, c)
      (t.1, t.2.1, t.2.2, i + items.length) := by
  induction items generalizing a b c i with
  | nil => rfl
  | cons item rest ih =>
      rw [List.foldl_cons, List.zipIdx_cons, List.foldl_cons, List.length_cons, ih]
      simp only [Nat.add_comm, Nat.add_left_comm]

section LeanBuild

open Cloth.AdjacencyKwise

/-- The incidences of a constraint list, each with the vertex it names. -/
def tagged (cons : List (List Nat)) : List (Nat × Nat × Nat) :=
  cons.zipIdx.flatMap fun inc => inc.1.zipIdx.map fun v => (v.1, inc.2, v.2)

/-- The keys are the vertices in the order of the constraints. -/
theorem map_fst_tagged (cons : List (List Nat)) : (tagged cons).map Prod.fst = cons.flatten := by
  have rows : ∀ inc : List Nat × Nat,
      (inc.1.zipIdx.map fun v => (v.1, inc.2, v.2)).map Prod.fst = inc.1 := by
    intro inc
    rw [List.map_map]
    exact List.zipIdx_map_fst 0 inc.1
  rw [tagged, List.map_flatMap]
  simp only [rows]
  exact congrArg List.flatten (List.zipIdx_map_fst 0 cons)

/-- `CsrAdj.build` counts by vertex too. -/
theorem counts_eq (nV : Nat) (cons : List (List Nat)) :
    CsrAdj.counts nV cons = countKeys nV ((tagged cons).map Prod.fst) := by
  rw [map_fst_tagged]
  simp [CsrAdj.counts, countKeys, List.foldl_flatten]

/-- `CsrAdj.build` scatters by vertex too. -/
theorem scatter_eq (nV : Nat) (cons : List (List Nat)) (offsets : Array Nat) :
    CsrAdj.scatter nV cons offsets =
      let start : Scatter Nat := ⟨Array.replicate offsets[nV]! 0, Array.replicate nV 0⟩
      ((scatter offsets Prod.fst (fun item => item.2.1) (tagged cons) start).out,
        (scatter offsets Prod.fst (fun item => item.2.2) (tagged cons) start).out) := by
  have pair := scatter_pair offsets Prod.fst (fun item : Nat × Nat × Nat => item.2.1)
    (fun item => item.2.2) (tagged cons) (Array.replicate offsets[nV]! 0)
    (Array.replicate offsets[nV]! 0) (Array.replicate nV 0)
  simp only [tagged, List.foldl_flatMap, List.foldl_map] at pair
  -- The two counters of the source become the indices of the two lists.
  have inner := fun (c : Nat) => foldl_index (fun (idx role cursor : Array Nat) r (v : Nat) =>
    (idx.set! (offsets[v]! + cursor[v]!) c, role.set! (offsets[v]! + cursor[v]!) r,
      cursor.modify v (· + 1)))
  have outer := foldl_index (fun (idx role cursor : Array Nat) c (inc : List Nat) =>
    inc.zipIdx.foldl (fun s v => (s.1.set! (offsets[v.1]! + s.2.2[v.1]!) c,
      s.2.1.set! (offsets[v.1]! + s.2.2[v.1]!) v.2, s.2.2.modify v.1 (· + 1)))
      (idx, role, cursor)) cons
  simp only [CsrAdj.scatter, List.forIn_pure_yield_eq_foldl, bind_pure_comp, map_pure, Id.run_pure,
    inner, outer]
  exact congrArg (fun s : Array Nat × Array Nat × Array Nat => (s.1, s.2.1)) pair

/-- The flat index of role `r` of constraint `c`, for constraints of one arity. -/
theorem getElem!_flatten (K : Nat) (cons : List (List Nat)) (arity : ∀ inc ∈ cons, inc.length = K)
    {c r : Nat} (cBound : c < cons.length) (rBound : r < K) :
    cons.flatten.toArray[K * c + r]! = (cons[c]!)[r]! := by
  induction cons generalizing c with
  | nil => simp at cBound
  | cons inc rest ih =>
      have width : inc.length = K := arity inc List.mem_cons_self
      cases c with
      | zero =>
          simp only [getElem!_def, List.getElem?_toArray, List.flatten_cons, Nat.mul_zero,
            Nat.zero_add, List.getElem?_cons_zero]
          rw [List.getElem?_append_left (by omega)]
      | succ c =>
          have later : K * (c + 1) + r = inc.length + (K * c + r) := by
            rw [width, Nat.mul_succ]
            omega
          have restBound : c < rest.length := by simpa using cBound
          have tail := ih (fun other member => arity other (List.mem_cons_of_mem _ member)) restBound
          rw [later]
          simp only [getElem!_def, List.getElem?_toArray, List.flatten_cons,
            List.getElem?_cons_succ] at tail ⊢
          rw [List.getElem?_append_right (by omega), Nat.add_sub_cancel_left]
          exact tail

/-- For constraints of one arity the two builders place the same incidences. -/
theorem tagged_eq {K : Nat} (cons : List (List Nat)) (arity : ∀ inc ∈ cons, inc.length = K) :
    tagged cons = (incidences cons.length K).map fun item =>
      (vertexOf K cons.flatten.toArray item, item) := by
  have indexed : ∀ {α : Type} [Inhabited α] (l : List α),
      l.zipIdx = (List.range l.length).map fun i => (l[i]!, i) := by
    intro α _ l
    refine List.ext_getElem (by simp) fun i left right => ?_
    simp only [List.length_zipIdx] at left
    simp [left]
  rw [tagged, indexed, incidences, List.map_flatMap, List.flatMap_map]
  refine List.flatMap_congr fun c member => ?_
  have cBound : c < cons.length := List.mem_range.mp member
  have width : cons[c]!.length = K := by
    rw [getElem!_pos cons c cBound]
    exact arity _ (List.getElem_mem cBound)
  simp only [indexed, width, List.map_map]
  refine List.map_congr_left fun r rMember => ?_
  simp only [Function.comp_apply, vertexOf]
  rw [getElem!_flatten K cons arity cBound (List.mem_range.mp rMember)]

/-- `build_csr` and the Lean `CsrAdj.build` agree on constraints of one arity. -/
theorem buildCsr_eq_build {K : Nat} (nV : Nat) (cons : List (List Nat))
    (arity : ∀ inc ∈ cons, inc.length = K) :
    CsrAdj.build nV cons =
      let csr := buildCsr nV cons.length K cons.flatten.toArray
      ⟨csr.offsets, csr.idxArr, csr.roleArr⟩ := by
  have same := tagged_eq cons arity
  have moved : ∀ (offsets : Array Nat) (val : Nat × Nat → Nat) (start : Scatter Nat),
      scatter offsets Prod.fst (fun item : Nat × Nat × Nat => val item.2) (tagged cons) start =
        scatter offsets (vertexOf K cons.flatten.toArray) val (incidences cons.length K) start := by
    intro offsets val start
    rw [scatter, same, List.foldl_map]
    rfl
  have keys : (tagged cons).map Prod.fst =
      (incidences cons.length K).map (vertexOf K cons.flatten.toArray) := by
    rw [same, List.map_map]
    rfl
  have counts : CsrAdj.counts nV cons = csrCounts nV cons.length K cons.flatten.toArray := by
    rw [counts_eq, csrCounts_eq, keys]
  have entries : ∀ offsets, CsrAdj.scatter nV cons offsets =
      csrScatter nV cons.length K cons.flatten.toArray offsets := by
    intro offsets
    rw [scatter_eq, csrScatter_eq]
    exact congrArg₂ Prod.mk (congrArg Scatter.out (moved offsets Prod.fst _))
      (congrArg Scatter.out (moved offsets Prod.snd _))
  simp only [CsrAdj.build, buildCsr, counts, entries]

/-- The rows of `csr` are the incidences of `cons`, each once and in increasing
order, and its offsets cut its entries into them. -/
structure Lists (csr : Csr) (nV K : Nat) (cons : List (List Nat)) : Prop where
  mem_row : ∀ v < nV, ∀ c r,
    (c, r) ∈ csr.row v ↔ ∃ inc, cons[c]? = some inc ∧ inc[r]? = some v
  nodup_row : ∀ v < nV, (csr.row v).Nodup
  sorted_row : ∀ v < nV, (csr.row v).Pairwise fun a b => a.1 < b.1 ∨ a.1 = b.1 ∧ a.2 < b.2
  size_offsets : csr.offsets.size = nV + 1
  offsets_zero : csr.offsets[0]! = 0
  offsets_mono : ∀ v < nV, csr.offsets[v]! ≤ csr.offsets[v + 1]!
  offsets_last : csr.offsets[nV]! = K * cons.length
  size_idxArr : csr.idxArr.size = K * cons.length
  size_roleArr : csr.roleArr.size = K * cons.length

/-- `build_csr` loses and invents nothing, and is the Lean `CsrAdj.build`. -/
theorem buildCsr_correct (nV K : Nat) (cons : List (List Nat))
    (arity : ∀ inc ∈ cons, inc.length = K) (inRange : ∀ inc ∈ cons, ∀ v ∈ inc, v < nV) :
    Lists (buildCsr nV cons.length K cons.flatten.toArray) nV K cons ∧
      CsrAdj.build nV cons =
        ⟨(buildCsr nV cons.length K cons.flatten.toArray).offsets,
          (buildCsr nV cons.length K cons.flatten.toArray).idxArr,
          (buildCsr nV cons.length K cons.flatten.toArray).roleArr⟩ := by
  have named : ∀ c < cons.length, ∀ r < K, cons.flatten.toArray[K * c + r]! = (cons[c]!)[r]! :=
    fun c cBound r rBound => getElem!_flatten K cons arity cBound rBound
  have below : ∀ c < cons.length, ∀ r < K, cons.flatten.toArray[K * c + r]! < nV := by
    intro c cBound r rBound
    have width : (cons[c]).length = K := arity _ (List.getElem_mem cBound)
    rw [named c cBound r rBound, getElem!_pos cons c cBound, getElem!_pos cons[c] r (by omega)]
    exact inRange _ (List.getElem_mem cBound) _ (List.getElem_mem _)
  have isOffsets := isOffsets_csr nV cons.length K cons.flatten.toArray
  obtain ⟨idx, role⟩ := buildCsr_entries below
  have row : ∀ v < nV, (buildCsr nV cons.length K cons.flatten.toArray).row v =
      rowOf cons.length K cons.flatten.toArray v := fun v vertex => row_buildCsr below vertex
  refine ⟨{
    mem_row := fun v vertex c r => ?_
    nodup_row := fun v vertex => row v vertex ▸ nodup_rowOf v
    sorted_row := fun v vertex => row v vertex ▸ pairwise_rowOf v
    size_offsets := by simp [buildCsr, offsetsPass_eq]
    offsets_zero := by rw [isOffsets 0 (Nat.zero_le _), total_zero]
    offsets_mono := fun v vertex => ?_
    offsets_last := by rw [isOffsets nV le_rfl, total_rows below]
    size_idxArr := ?_
    size_roleArr := ?_ }, buildCsr_eq_build nV cons arity⟩
  · rw [row v vertex, mem_rowOf]
    constructor
    · rintro ⟨cBound, rBound, here⟩
      have width : (cons[c]).length = K := arity _ (List.getElem_mem cBound)
      rw [named c cBound r rBound, getElem!_pos cons c cBound,
        getElem!_pos cons[c] r (by omega)] at here
      exact ⟨cons[c], List.getElem?_eq_getElem cBound, List.getElem?_eq_some_iff.mpr ⟨_, here⟩⟩
    · rintro ⟨inc, atC, atR⟩
      obtain ⟨cBound, rfl⟩ := List.getElem?_eq_some_iff.mp atC
      obtain ⟨inside, here⟩ := List.getElem?_eq_some_iff.mp atR
      have rBound : r < K := by rwa [arity _ (List.getElem_mem cBound)] at inside
      refine ⟨cBound, rBound, ?_⟩
      rw [named c cBound r rBound, getElem!_pos cons c cBound, getElem!_pos cons[c] r inside, here]
  · rw [isOffsets v (by omega), isOffsets (v + 1) (by omega), total_succ]
    omega
  · rw [idx, List.size_toArray, length_flatMap_range]
    simpa using total_rows below
  · rw [role, List.size_toArray, length_flatMap_range]
    simpa using total_rows below

/-- Two triangles that share an edge, one of them naming a vertex twice. -/
theorem buildCsr_correct_triangles :
    Lists (buildCsr 4 2 3 #[0, 1, 2, 3, 2, 2]) 4 3 [[0, 1, 2], [3, 2, 2]] :=
  (buildCsr_correct 4 3 [[0, 1, 2], [3, 2, 2]] (by decide) (by decide)).1

end LeanBuild

end DressOn.Avbd
