import DressOn.Curvenet.Topology
import DressOn.Curvenet.Weld

/-!
# One mesh of many parts

`build_mesh` of `curvenet_api.cpp`: the parts laid end to end, welded, stripped of the triangles
that the weld collapsed and of the vertices that no triangle uses. The remesher is a parameter.
-/

namespace DressOn.Curvenet

open ClosedWalks FirstFit

variable {R : Type*}

/-- The triangle with each index changed. -/
def Tri.map (g : Nat → Nat) (tri : Tri) : Tri := ⟨g tri.a, g tri.b, g tri.c⟩

/-- Whether no two corners are the same. -/
def Tri.Distinct (tri : Tri) : Prop := ¬ (tri.a = tri.b ∨ tri.b = tri.c ∨ tri.a = tri.c)

instance : DecidablePred Tri.Distinct := fun _ => inferInstanceAs (Decidable (¬ _))

/-- `BuiltMesh`. -/
structure BuiltMesh (R : Type*) where
  vertices : List (Point R)
  triangles : List Tri
  patchIds : List Nat
  found : Found
  error : String
deriving DecidableEq, Repr

/-- `soup`, `tris` and `ids`. -/
structure Soup (R : Type*) where
  soup : List (Point R)
  tris : List Tri
  ids : List Nat

/-- One turn of the loop over the parts. -/
def Soup.add (state : Soup R) (entry : (List (Point R) × List Tri) × Nat) : Soup R where
  soup := state.soup ++ entry.1.1
  tris := state.tris ++ entry.1.2.map (Tri.map (state.soup.length + ·))
  ids := state.ids ++ List.replicate entry.1.2.length entry.2

/-- The loop over the parts. -/
def assemble (parts : List (List (Point R) × List Tri)) : Soup R :=
  parts.zipIdx.foldl Soup.add ⟨[], [], []⟩

/-- One turn of the loop over the triangles: `f2` and `id2`. -/
def keepStep (remap ids : List Nat) (state : List Tri × List Nat) (entry : Tri × Nat) :
    List Tri × List Nat :=
  let tri := entry.1.map (remap.getD · 0)
  if tri.a = tri.b ∨ tri.b = tri.c ∨ tri.a = tri.c then state
  else (state.1 ++ [tri], state.2 ++ [ids.getD entry.2 0])

/-- `compact` and the vertices so far. -/
structure Compacted (R : Type*) where
  compact : Nat → Option Nat
  vertices : List (Point R)

/-- One turn of the loop over the corners. -/
def compactCorner (welded : List (Point R)) (state : Compacted R) (i : Nat) : Compacted R × Nat :=
  match state.compact i with
  | some place => (state, place)
  | none =>
    (⟨Function.update state.compact i (some state.vertices.length),
      state.vertices ++ welded[i]?.toList⟩, state.vertices.length)

/-- The loop over the corners, each rewritten in its place. -/
def compactCorners (welded : List (Point R)) : Compacted R → List Nat → Compacted R × List Nat
  | state, [] => (state, [])
  | state, i :: rest =>
    let (state, place) := compactCorner welded state i
    let (state, places) := compactCorners welded state rest
    (state, place :: places)

/-- An index list as triangles. -/
def triples : List Nat → List Tri
  | a :: b :: c :: rest => ⟨a, b, c⟩ :: triples rest
  | _ => []

section Model

variable [Field R] [LinearOrder R] [FloorRing R]

/-- The mesh before it is remeshed: the parts, welded and compacted. -/
def gathered (parts : List (List (Point R) × List Tri)) (weldEps : R) :
    List (Point R) × List Tri × List Nat :=
  let soup := assemble parts
  let (remap, welded) := weld soup.soup weldEps
  let survivors := soup.tris.zipIdx.foldl (keepStep remap soup.ids) ([], [])
  let compacted := compactCorners welded ⟨fun _ => none, []⟩ (survivors.1.flatMap Tri.corners)
  (compacted.1.vertices, triples compacted.2, survivors.2)

/-- `build_mesh`. -/
def buildMesh (chooser : Chooser Nat)
    (remesh : List (Point R) × List Tri × List Nat → R →
      Except String (List (Point R) × List Tri × List Nat))
    (partVertices : List (List (Point R))) (partTriangles : List (List Tri))
    (targetEdgeLength weldEps : R) : BuiltMesh R :=
  let mesh := gathered (partVertices.zip partTriangles) weldEps
  let remeshed :=
    if 0 < targetEdgeLength ∧ mesh.2.1 ≠ [] then remesh mesh targetEdgeLength else .ok mesh
  match remeshed with
  | .error error => ⟨mesh.1, mesh.2.1, mesh.2.2, ⟨0, [], 0⟩, error⟩
  | .ok (vertices, triangles, patchIds) =>
    ⟨vertices, triangles, patchIds, topology chooser vertices.length triangles, ""⟩

end Model

section Parts

/-- How many vertices the parts before one have. -/
def offset (parts : List (List (Point R) × List Tri)) (p : Nat) : Nat :=
  ((parts.take p).map fun part => part.1.length).sum

/-- The triangles of all parts over all their vertices, each with the number of its part. -/
def inputs (parts : List (List (Point R) × List Tri)) : List (Tri × Nat) :=
  parts.zipIdx.flatMap fun entry =>
    entry.1.2.map fun tri => (tri.map (offset parts entry.2 + ·), entry.2)

/-- Every triangle names vertices of its part. -/
def PartsInRange (parts : List (List (Point R) × List Tri)) : Prop :=
  ∀ part ∈ parts, ∀ tri ∈ part.2, ∀ v ∈ tri.corners, v < part.1.length

instance (parts : List (List (Point R) × List Tri)) : Decidable (PartsInRange parts) :=
  inferInstanceAs (Decidable (∀ part ∈ parts, ∀ tri ∈ part.2, ∀ v ∈ tri.corners, v < part.1.length))

theorem inputs_snoc (parts : List (List (Point R) × List Tri)) (part : List (Point R) × List Tri) :
    inputs (parts ++ [part]) = inputs parts ++ part.2.map fun tri =>
      (tri.map ((parts.flatMap Prod.fst).length + ·), parts.length) := by
  unfold inputs
  rw [List.zipIdx_append, List.flatMap_append]
  have last : offset (parts ++ [part]) parts.length = (parts.flatMap Prod.fst).length := by
    unfold offset
    rw [List.take_left, List.length_flatMap]
  refine congrArg₂ (· ++ ·) ?_ ?_
  · refine List.flatMap_congr fun entry member => ?_
    have bound := (List.mem_zipIdx member).2.1
    have same : offset (parts ++ [part]) entry.2 = offset parts entry.2 := by
      unfold offset
      rw [List.take_append_of_le_length (by omega)]
    rw [same]
  · simp [last]

/-- The loop over the parts gives their vertices, triangles and numbers. -/
theorem assemble_eq (parts : List (List (Point R) × List Tri)) :
    assemble parts
      = ⟨parts.flatMap Prod.fst, (inputs parts).map Prod.fst, (inputs parts).map Prod.snd⟩ := by
  induction parts using List.reverseRecOn with
  | nil => rfl
  | append_singleton parts part inductionHypothesis =>
    have step : assemble (parts ++ [part]) = (assemble parts).add (part, parts.length) := by
      unfold assemble
      rw [List.zipIdx_append, List.foldl_append]
      simp
    have ids : List.replicate part.2.length parts.length
        = part.2.map (Function.const Tri parts.length) := (List.map_const ..).symm
    rw [step, inductionHypothesis, inputs_snoc]
    unfold Soup.add
    rw [List.flatMap_append, List.flatMap_singleton, List.map_append, List.map_append,
      List.map_map, List.map_map, ids]
    rfl

theorem corner_lt {parts : List (List (Point R) × List Tri)} (inRange : PartsInRange parts)
    {input : Tri × Nat} (member : input ∈ inputs parts) {v : Nat} (corner : v ∈ input.1.corners) :
    v < (parts.flatMap Prod.fst).length := by
  induction parts using List.reverseRecOn with
  | nil => exact absurd member List.not_mem_nil
  | append_singleton parts part inductionHypothesis =>
    rw [inputs_snoc] at member
    rw [List.flatMap_append, List.length_append]
    rcases List.mem_append.mp member with member | member
    · refine Nat.lt_add_right _ (inductionHypothesis ?_ member)
      exact fun other here => inRange other (List.mem_append_left _ here)
    · obtain ⟨tri, here, rfl⟩ := List.mem_map.mp member
      have bounds := inRange part (List.mem_append_right _ (List.mem_singleton_self _)) tri here
      simp only [Tri.corners, Tri.map, List.mem_cons, List.not_mem_nil, or_false] at corner bounds
      simp only [List.flatMap_singleton]
      rcases corner with rfl | rfl | rfl
      · exact Nat.add_lt_add_left (bounds _ (.inl rfl)) _
      · exact Nat.add_lt_add_left (bounds _ (.inr (.inl rfl))) _
      · exact Nat.add_lt_add_left (bounds _ (.inr (.inr rfl))) _

end Parts

section Surviving

/-- The loop over the triangles keeps those whose corners stay distinct, each with its own id. -/
theorem foldl_keepStep (remap ids : List Nat) (rest : List (Tri × Nat)) (start : Nat)
    (aligned : ids.drop start = rest.map Prod.snd) (state : List Tri × List Nat) :
    ((rest.map Prod.fst).zipIdx start).foldl (keepStep remap ids) state
      = (state.1 ++ (rest.filter fun input =>
            (input.1.map (remap.getD · 0)).Distinct).map fun input =>
              input.1.map (remap.getD · 0),
          state.2 ++ (rest.filter fun input =>
            (input.1.map (remap.getD · 0)).Distinct).map Prod.snd) := by
  induction rest generalizing start state with
  | nil => simp
  | cons input rest inductionHypothesis =>
    have here : ids.getD start 0 = input.2 := by
      have first := congrArg List.head? aligned
      rw [List.head?_drop] at first
      rw [List.getD_eq_getElem?_getD, first]
      rfl
    have beyond : ids.drop (start + 1) = rest.map Prod.snd := by
      rw [← List.drop_drop, aligned]
      rfl
    rw [List.map_cons, List.zipIdx_cons, List.foldl_cons, inductionHypothesis _ beyond]
    unfold keepStep
    by_cases distinct : (input.1.map (remap.getD · 0)).Distinct
    · rw [if_neg distinct, List.filter_cons_of_pos (by simpa using distinct)]
      simp only [List.map_cons, List.append_assoc, List.singleton_append, here]
    · rw [if_pos (not_not.mp distinct), List.filter_cons_of_neg (by simpa using distinct)]

end Surviving

section Compacting

/-- What is placed has a vertex, and the welded position. -/
def Compacted.Ok (welded : List (Point R)) (state : Compacted R) : Prop :=
  ∀ i place, state.compact i = some place →
    place < state.vertices.length ∧ state.vertices[place]? = welded[i]?

/-- A later state keeps the places. -/
def Compacted.Extends (before after : Compacted R) : Prop :=
  ∀ i place, before.compact i = some place → after.compact i = some place

/-- One corner is placed, and a vertex only for it. -/
theorem compactCorner_spec {welded : List (Point R)} {state : Compacted R} (ok : state.Ok welded)
    {i : Nat} (inside : i < welded.length) :
    let (state', place) := compactCorner welded state i
    state'.Ok welded ∧ state.Extends state' ∧ state'.compact i = some place ∧
      ∀ j < state'.vertices.length, j < state.vertices.length ∨ j = place := by
  unfold compactCorner
  cases found : state.compact i with
  | some place => exact ⟨ok, fun _ _ same => same, found, fun j bound => .inl bound⟩
  | none =>
    have grown : welded[i]?.toList = [welded[i]] := by
      rw [List.getElem?_eq_getElem inside]
      rfl
    dsimp only
    rw [grown]
    refine ⟨fun j place same => ?_, fun j place same => ?_, Function.update_self .., ?_⟩
    · dsimp only at same ⊢
      rw [List.length_append, List.length_singleton]
      by_cases here : j = i
      · subst here
        rw [Function.update_self] at same
        obtain rfl := Option.some.inj same
        refine ⟨Nat.lt_succ_self _, ?_⟩
        rw [List.getElem?_concat_length, List.getElem?_eq_getElem inside]
      · rw [Function.update_of_ne here] at same
        obtain ⟨bound, position⟩ := ok j place same
        rw [List.getElem?_append_left bound]
        exact ⟨Nat.lt_succ_of_lt bound, position⟩
    · have away : j ≠ i := by
        rintro rfl
        rw [found] at same
        exact nomatch same
      exact (Function.update_of_ne away ..).trans same
    · intro j bound
      rw [List.length_append, List.length_singleton] at bound
      omega

/-- The loop over the corners rewrites them by the map it ends with, and every vertex is the place
of some corner. -/
theorem compactCorners_spec {welded : List (Point R)} {state : Compacted R} (ok : state.Ok welded)
    {corners : List Nat} (inside : ∀ i ∈ corners, i < welded.length) :
    let (state', places) := compactCorners welded state corners
    state'.Ok welded ∧ state.Extends state' ∧
      places = corners.map (fun i => (state'.compact i).getD 0) ∧
      (∀ i ∈ corners, (state'.compact i).isSome) ∧
      ∀ j < state'.vertices.length, j < state.vertices.length ∨ j ∈ places := by
  induction corners generalizing state with
  | nil =>
    exact ⟨ok, fun _ _ same => same, rfl, fun i member => absurd member List.not_mem_nil,
      fun j bound => .inl bound⟩
  | cons i rest inductionHypothesis =>
    have one := compactCorner_spec ok (inside i (List.mem_cons_self ..))
    unfold compactCorners
    generalize compactCorner welded state i = first at one ⊢
    obtain ⟨state', place⟩ := first
    obtain ⟨ok', extends', placed, grown⟩ := one
    have more := inductionHypothesis ok' fun j member => inside j (List.mem_cons_of_mem _ member)
    dsimp only
    generalize compactCorners welded state' rest = later at more ⊢
    obtain ⟨last, places⟩ := later
    obtain ⟨okLast, extendsLast, mapped, allPlaced, grownLast⟩ := more
    have stays := extendsLast i place placed
    refine ⟨okLast, fun j other same => extendsLast j other (extends' j other same), ?_, ?_, ?_⟩
    · rw [List.map_cons, stays, mapped]
      rfl
    · intro j member
      rcases List.mem_cons.mp member with rfl | member
      · rw [stays]
        rfl
      · exact allPlaced j member
    · intro j bound
      rcases grownLast j bound with before | member
      · rcases grown j before with before | rfl
        · exact .inl before
        · exact .inr (List.mem_cons_self ..)
      · exact .inr (List.mem_cons_of_mem _ member)

theorem triples_map (g : Nat → Nat) (tris : List Tri) :
    triples ((tris.flatMap Tri.corners).map g) = tris.map (Tri.map g) := by
  induction tris with
  | nil => rfl
  | cons tri rest inductionHypothesis =>
    rw [List.flatMap_cons, List.map_append, List.map_cons, ← inductionHypothesis]
    rfl

theorem corners_map (g : Nat → Nat) (tri : Tri) : (tri.map g).corners = tri.corners.map g := rfl

theorem mem_corners_map {g : Nat → Nat} {tri : Tri} {v : Nat} :
    v ∈ (tri.map g).corners ↔ ∃ i ∈ tri.corners, g i = v := by
  rw [corners_map]
  exact List.mem_map

/-- Compacting changes no position, leaves no vertex out of use and no index out of range. -/
theorem compacted_spec {welded : List (Point R)} {survivors : List Tri}
    (inside : ∀ tri ∈ survivors, ∀ v ∈ tri.corners, v < welded.length) :
    let compacted := compactCorners welded ⟨fun _ => none, []⟩ (survivors.flatMap Tri.corners)
    (triples compacted.2).map (fun tri => tri.corners.map (compacted.1.vertices[·]?))
        = survivors.map (fun tri => tri.corners.map (welded[·]?)) ∧
      (∀ v < compacted.1.vertices.length, ∃ tri ∈ triples compacted.2, v ∈ tri.corners) ∧
      ∀ tri ∈ triples compacted.2, ∀ v ∈ tri.corners, v < compacted.1.vertices.length := by
  have start : (⟨fun _ => none, []⟩ : Compacted R).Ok welded := fun i place same => nomatch same
  have all : ∀ i ∈ survivors.flatMap Tri.corners, i < welded.length := by
    intro i member
    obtain ⟨tri, here, corner⟩ := List.mem_flatMap.mp member
    exact inside tri here i corner
  have spec := compactCorners_spec start all
  dsimp only
  generalize compactCorners welded ⟨fun _ => none, []⟩ (survivors.flatMap Tri.corners)
    = compacted at spec ⊢
  obtain ⟨state, places⟩ := compacted
  obtain ⟨ok, _, rfl, allPlaced, covered⟩ := spec
  dsimp only at ok allPlaced covered ⊢
  have placed : ∀ tri ∈ survivors, ∀ v ∈ tri.corners, ∃ place, state.compact v = some place :=
    fun tri member v corner =>
      Option.isSome_iff_exists.mp (allPlaced v (List.mem_flatMap.mpr ⟨tri, member, corner⟩))
  rw [triples_map]
  refine ⟨?_, fun v bound => ?_, fun tri member v corner => ?_⟩
  · rw [List.map_map]
    refine List.map_congr_left fun tri member => ?_
    rw [Function.comp_apply, corners_map, List.map_map]
    refine List.map_congr_left fun v corner => ?_
    obtain ⟨place, same⟩ := placed tri member v corner
    rw [Function.comp_apply, same]
    exact (ok v place same).2
  · rcases covered v bound with absurd | member
    · exact nomatch absurd
    · obtain ⟨i, ofCorner, rfl⟩ := List.mem_map.mp member
      obtain ⟨tri, here, corner⟩ := List.mem_flatMap.mp ofCorner
      exact ⟨_, List.mem_map_of_mem here, mem_corners_map.mpr ⟨i, corner, rfl⟩⟩
  · obtain ⟨original, here, rfl⟩ := List.mem_map.mp member
    obtain ⟨i, ofCorner, rfl⟩ := mem_corners_map.mp corner
    obtain ⟨place, same⟩ := placed original here i ofCorner
    rw [same]
    exact (ok i place same).1

end Compacting

section Claim

variable [Field R] [LinearOrder R] [FloorRing R] {parts : List (List (Point R) × List Tri)}

/-- Every vertex has a representative. -/
theorem weld_inRange (v : List (Point R)) (eps : R) :
    (weld v eps).1.length = v.length ∧ ∀ found ∈ (weld v eps).1, found < (weld v eps).2.length := by
  by_cases positive : 0 < eps
  · have placed := weld_eq_placeAll positive v
    have bounds := @placeAll_remap _ (bucketed (keyOf eps) (within eps) (nearKeys eps))
      finds_bucketed v
    rw [← placed] at bounds
    exact bounds
  · unfold weld
    rw [if_pos (not_lt.mp positive)]
    exact ⟨List.length_range, fun found member => List.mem_range.mp member⟩

/-- The triangles of the parts that the weld does not collapse. -/
def kept (parts : List (List (Point R) × List Tri)) (weldEps : R) : List (Tri × Nat) :=
  (inputs parts).filter fun input =>
    (input.1.map ((weld (parts.flatMap Prod.fst) weldEps).1.getD · 0)).Distinct

/-- The position of a vertex's representative. -/
def position (parts : List (List (Point R) × List Tri)) (weldEps : R) (v : Nat) :
    Option (Point R) :=
  let (remap, welded) := weld (parts.flatMap Prod.fst) weldEps
  welded[remap.getD v 0]?

/-- The representatives of a triangle's corners are among the welded vertices. -/
theorem representative_lt (inRange : PartsInRange parts) (weldEps : R) {input : Tri × Nat}
    (member : input ∈ inputs parts) {v : Nat} (corner : v ∈ input.1.corners) :
    (weld (parts.flatMap Prod.fst) weldEps).1.getD v 0
      < (weld (parts.flatMap Prod.fst) weldEps).2.length := by
  obtain ⟨length, bounded⟩ := weld_inRange (parts.flatMap Prod.fst) weldEps
  have bound := corner_lt inRange member corner
  rw [← length] at bound
  rw [List.getD_eq_getElem?_getD, List.getElem?_eq_getElem bound]
  exact bounded _ (List.getElem_mem bound)

/-- What the mesh is before a remesh. -/
theorem gathered_spec (inRange : PartsInRange parts) (weldEps : R) :
    let (vertices, triangles, patchIds) := gathered parts weldEps
    triangles.map (fun tri => tri.corners.map (vertices[·]?))
        = (kept parts weldEps).map (fun input => input.1.corners.map (position parts weldEps)) ∧
      patchIds = (kept parts weldEps).map Prod.snd ∧
      (∀ v < vertices.length, ∃ tri ∈ triangles, v ∈ tri.corners) ∧
      ∀ tri ∈ triangles, ∀ v ∈ tri.corners, v < vertices.length := by
  have remapped : ∀ tri ∈ (kept parts weldEps).map (fun input =>
      input.1.map ((weld (parts.flatMap Prod.fst) weldEps).1.getD · 0)),
      ∀ v ∈ tri.corners, v < (weld (parts.flatMap Prod.fst) weldEps).2.length := by
    intro tri member v corner
    obtain ⟨input, here, rfl⟩ := List.mem_map.mp member
    obtain ⟨i, ofCorner, rfl⟩ := mem_corners_map.mp corner
    exact representative_lt inRange weldEps (List.mem_of_mem_filter here) ofCorner
  obtain ⟨positions, used, bounded⟩ := compacted_spec remapped
  have keeps := foldl_keepStep (weld (parts.flatMap Prod.fst) weldEps).1
    ((inputs parts).map Prod.snd) (inputs parts) 0 rfl ([], [])
  unfold gathered
  rw [assemble_eq]
  dsimp only
  rw [keeps]
  refine ⟨?_, rfl, used, bounded⟩
  refine positions.trans ?_
  rw [List.map_map]
  refine List.map_congr_left fun input _ => ?_
  rw [Function.comp_apply, corners_map, List.map_map]
  rfl

/-- Without a remesh the triangles are those of the parts that the weld does not collapse, in order,
with the positions of the representatives and the numbers of their parts; every vertex is in use,
and every index in range. -/
theorem buildMesh_keeps (chooser : Chooser Nat)
    (remesh : List (Point R) × List Tri × List Nat → R →
      Except String (List (Point R) × List Tri × List Nat))
    (partVertices : List (List (Point R))) (partTriangles : List (List Tri))
    (targetEdgeLength weldEps : R) (without : targetEdgeLength ≤ 0)
    (inRange : PartsInRange (partVertices.zip partTriangles)) :
    let parts := partVertices.zip partTriangles
    let mesh := buildMesh chooser remesh partVertices partTriangles targetEdgeLength weldEps
    mesh.triangles.map (fun tri => tri.corners.map (mesh.vertices[·]?))
        = (kept parts weldEps).map (fun input => input.1.corners.map (position parts weldEps)) ∧
      mesh.patchIds = (kept parts weldEps).map Prod.snd ∧
      (∀ v < mesh.vertices.length, ∃ tri ∈ mesh.triangles, v ∈ tri.corners) ∧
      ∀ tri ∈ mesh.triangles, ∀ v ∈ tri.corners, v < mesh.vertices.length := by
  have skipped : ¬ (0 < targetEdgeLength ∧
      (gathered (partVertices.zip partTriangles) weldEps).2.1 ≠ []) :=
    fun both => absurd both.1 (not_lt.mpr without)
  unfold buildMesh
  dsimp only
  rw [if_neg skipped]
  exact gathered_spec inRange weldEps

/-- Two triangles of one part and one of another, which shares two vertices with the first part;
the weld collapses the second. -/
theorem buildMesh_keeps_two :
    ((buildMesh .first (fun mesh _ => .ok mesh)
      [[⟨0, 0, 0⟩, ⟨4, 0, 0⟩, ⟨0, 4, 0⟩, ⟨4, 1, 0⟩], [⟨4, 0, 0⟩, ⟨0, 4, 0⟩, ⟨4, 4, 0⟩]]
      [[⟨0, 1, 2⟩, ⟨1, 3, 2⟩], [⟨0, 2, 1⟩]] 0 (1 : ℚ)).patchIds = [0, 1]) ∧
    ∀ v < (buildMesh .first (fun mesh _ => .ok mesh)
      [[⟨0, 0, 0⟩, ⟨4, 0, 0⟩, ⟨0, 4, 0⟩, ⟨4, 1, 0⟩], [⟨4, 0, 0⟩, ⟨0, 4, 0⟩, ⟨4, 4, 0⟩]]
      [[⟨0, 1, 2⟩, ⟨1, 3, 2⟩], [⟨0, 2, 1⟩]] 0 (1 : ℚ)).vertices.length,
      ∃ tri ∈ (buildMesh .first (fun mesh _ => .ok mesh)
        [[⟨0, 0, 0⟩, ⟨4, 0, 0⟩, ⟨0, 4, 0⟩, ⟨4, 1, 0⟩], [⟨4, 0, 0⟩, ⟨0, 4, 0⟩, ⟨4, 4, 0⟩]]
        [[⟨0, 1, 2⟩, ⟨1, 3, 2⟩], [⟨0, 2, 1⟩]] 0 (1 : ℚ)).triangles, v ∈ tri.corners :=
  ⟨by decide +kernel, (buildMesh_keeps .first (fun mesh _ => .ok mesh) _ _ 0 (1 : ℚ) le_rfl
    (by decide)).2.2.1⟩

end Claim

end DressOn.Curvenet
