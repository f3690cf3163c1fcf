import DressOn.Avbd.Step
import DressOn.Lib.Portions
import DressOn.Lib.UnionFind

/-!
# Cloth meshes in parts

`combine_meshes`, `partition_islands` and the islands it makes. A mesh cut into parts keeps its
data when each part is the mesh read at the part's own vertices and elements, its indices the places
of these vertices.
-/

namespace DressOn.Avbd.ClothGrid

open CountingSort (bucket)
open Portions (Numbering numberAll)
open UnionFind (find)

/-- `ClothMesh`; a vertex, a triangle, a bending and an attachment are a row each. -/
structure ClothMesh (α : Type*) where
  nx : Nat
  ny : Nat
  width : α
  height : α
  positions : List (Vec3 α)
  mass : List α
  triIdx : List (Fin 3 → Nat)
  triInvUV : List (Fin 4 → α)
  bendIdx : List (Fin 4 → Nat)
  bendWeight : List (Fin 4 → α)
  bendNTarget : List α
  attachVert : List Nat
  attachFixed : List (Vec3 α)
  faces : List (Fin 3 → Nat)

namespace ClothMesh

variable {α : Type*} (mesh : ClothMesh α)

/-- `ClothMesh()`. -/
def empty [Zero α] : ClothMesh α := ⟨0, 0, 0, 0, [], [], [], [], [], [], [], [], [], []⟩

/-- `nVerts`. -/
def nVerts : Nat := mesh.positions.length

/-- `nTri`. -/
def nTri : Nat := mesh.triInvUV.length

/-- `nBend`. -/
def nBend : Nat := mesh.bendNTarget.length

/-- `nAttach`. -/
def nAttach : Nat := mesh.attachVert.length

/-- The corners of a triangle. -/
def tri (t : Nat) : Fin 3 → Nat := mesh.triIdx.getD t 0

/-- The vertices of a bending. -/
def bend (b : Nat) : Fin 4 → Nat := mesh.bendIdx.getD b 0

/-- The vertex of an attachment. -/
def attach (a : Nat) : Nat := mesh.attachVert.getD a 0

/-- The arrays fit together, and every index is one of a vertex. -/
structure Proper : Prop where
  mass : mesh.mass.length = mesh.nVerts
  triIdx : mesh.triIdx.length = mesh.nTri
  bendIdx : mesh.bendIdx.length = mesh.nBend
  bendWeight : mesh.bendWeight.length = mesh.nBend
  attachFixed : mesh.attachFixed.length = mesh.nAttach
  tri : ∀ t < mesh.nTri, ∀ r, mesh.tri t r < mesh.nVerts
  bend : ∀ b < mesh.nBend, ∀ r, mesh.bend b r < mesh.nVerts
  attach : ∀ a < mesh.nAttach, mesh.attach a < mesh.nVerts

/-- The pairs of vertices that a triangle or a bending holds together. -/
def links : List (Nat × Nat) :=
  ((List.range mesh.nTri).flatMap fun t => [1, 2].map fun r => (mesh.tri t 0, mesh.tri t r)) ++
  (List.range mesh.nBend).flatMap fun b => [1, 2, 3].map fun r => (mesh.bend b 0, mesh.bend b r)

/-- The mesh has a vertex, and its constraints hold all of them together. -/
structure Connected : Prop where
  nonempty : 0 < mesh.nVerts
  linked : ∀ u < mesh.nVerts, ∀ v < mesh.nVerts, UnionFind.Connected mesh.links u v

/-- The mesh without the size of its grid and its faces. -/
def physical [Zero α] : ClothMesh α :=
  { mesh with nx := 0, ny := 0, width := 0, height := 0, faces := [] }

end ClothMesh

section Combine

variable {α : Type*}

/-- A row of indices moved up. -/
def shift {k : Nat} (voff : Nat) (row : Fin k → Nat) : Fin k → Nat := fun r => row r + voff

/-- One turn of the loop over the parts: `m` and `voff`. -/
def combineStep (state : ClothMesh α × Nat) (p : ClothMesh α) : ClothMesh α × Nat :=
  ({ state.1 with
      positions := state.1.positions ++ p.positions
      mass := state.1.mass ++ p.mass
      triIdx := state.1.triIdx ++ p.triIdx.map (shift state.2)
      triInvUV := state.1.triInvUV ++ p.triInvUV
      bendIdx := state.1.bendIdx ++ p.bendIdx.map (shift state.2)
      bendWeight := state.1.bendWeight ++ p.bendWeight
      bendNTarget := state.1.bendNTarget ++ p.bendNTarget
      attachVert := state.1.attachVert ++ p.attachVert.map (· + state.2)
      attachFixed := state.1.attachFixed ++ p.attachFixed
      faces := state.1.faces ++ p.faces.map (shift state.2) },
    state.2 + p.nVerts)

/-- `combine_meshes`. -/
def combineMeshes [Zero α] (parts : List (ClothMesh α)) : ClothMesh α :=
  (parts.foldl combineStep (.empty, 0)).1

end Combine

section Partition

variable {α : Type*} [Zero α] (mesh : ClothMesh α)

/-- `uf_union`: the right side of its assignment first. -/
def ufUnion (nV : Nat) (parent : Nat → Nat) (a b : Nat) : Nat → Nat :=
  let rb := find nV parent b
  let ra := find nV rb.1 a
  Function.update ra.1 ra.2 rb.2

/-- The loops over the triangles and the bendings. -/
def unite : Nat → Nat :=
  let nV := mesh.nVerts
  let tris := (List.range mesh.nTri).foldl (fun parent t =>
    ufUnion nV (ufUnion nV parent (mesh.tri t 0) (mesh.tri t 1)) (mesh.tri t 0) (mesh.tri t 2)) id
  (List.range mesh.nBend).foldl (fun parent b =>
    [1, 2, 3].foldl (fun parent r => ufUnion nV parent (mesh.bend b 0) (mesh.bend b r)) parent) tris

/-- One turn of the loop that numbers the islands: `parent`, then `rootToIsland`, `islandOf` and
`nIsl`. -/
def islandStep (nV : Nat) (state : (Nat → Nat) × Numbering Nat) (v : Nat) :
    (Nat → Nat) × Numbering Nat :=
  let r := find nV state.1 v
  (r.1, state.2.add r.2)

/-- `islandOf` and `nIsl`. -/
def islands : Numbering Nat :=
  ((List.range mesh.nVerts).foldl (islandStep mesh.nVerts) (unite mesh, .start)).2

/-- `islandOf[v]`. -/
def islandOf (v : Nat) : Nat := (islands mesh).numbers.getD v 0

/-- A vertex for a part. -/
def pushVertex (v : Nat) (im : ClothMesh α) : ClothMesh α :=
  { im with
    positions := im.positions ++ [mesh.positions.getD v 0]
    mass := im.mass ++ [mesh.mass.getD v 0] }

/-- One turn of the loop over the vertices: `out` and `localOf`. -/
def vertexStep (state : List (ClothMesh α) × List Nat) (v : Nat) : List (ClothMesh α) × List Nat :=
  (state.1.modify (islandOf mesh v) (pushVertex mesh v),
    state.2 ++ [(state.1.getD (islandOf mesh v) .empty).nVerts])

/-- A triangle for a part, with the places of its corners. -/
def pushTri (localOf : Nat → Nat) (t : Nat) (im : ClothMesh α) : ClothMesh α :=
  { im with
    triIdx := im.triIdx ++ [fun r => localOf (mesh.tri t r)]
    triInvUV := im.triInvUV ++ [mesh.triInvUV.getD t 0] }

/-- A bending for a part, with the places of its vertices. -/
def pushBend (localOf : Nat → Nat) (b : Nat) (im : ClothMesh α) : ClothMesh α :=
  { im with
    bendIdx := im.bendIdx ++ [fun r => localOf (mesh.bend b r)]
    bendWeight := im.bendWeight ++ [mesh.bendWeight.getD b 0]
    bendNTarget := im.bendNTarget ++ [mesh.bendNTarget.getD b 0] }

/-- An attachment for a part, with the place of its vertex. -/
def pushAttach (localOf : Nat → Nat) (a : Nat) (im : ClothMesh α) : ClothMesh α :=
  { im with
    attachVert := im.attachVert ++ [localOf (mesh.attach a)]
    attachFixed := im.attachFixed ++ [mesh.attachFixed.getD a 0] }

/-- `partition_islands`. -/
def partitionIslands : List (ClothMesh α) :=
  let (out, places) := (List.range mesh.nVerts).foldl (vertexStep mesh)
    (List.replicate (islands mesh).next .empty, [])
  let localOf v := places.getD v 0
  let out := (List.range mesh.nTri).foldl (fun out t =>
    out.modify (islandOf mesh (mesh.tri t 0)) (pushTri mesh localOf t)) out
  let out := (List.range mesh.nBend).foldl (fun out b =>
    out.modify (islandOf mesh (mesh.bend b 0)) (pushBend mesh localOf b)) out
  let out := (List.range mesh.nAttach).foldl (fun out a =>
    out.modify (islandOf mesh (mesh.attach a)) (pushAttach mesh localOf a)) out
  out.map fun im => { im with faces := im.triIdx }

end Partition

section Parts

variable {α : Type*} [Zero α]

/-- The vertices that a part's row of indices names. -/
def names {k : Nat} (vs : List Nat) (row : Fin k → Nat) : Fin k → Option Nat := fun r => vs[row r]?

/-- The part is the mesh at these vertices, triangles, bendings and attachments, each of its indices
the place of the vertex that the mesh names. -/
structure PartOf (mesh : ClothMesh α) (vs ts bs as : List Nat) (part : ClothMesh α) : Prop where
  positions : part.positions = vs.map fun v => mesh.positions.getD v 0
  mass : part.mass = vs.map fun v => mesh.mass.getD v 0
  triIdx : part.triIdx.map (names vs) = ts.map fun t r => some (mesh.tri t r)
  triInvUV : part.triInvUV = ts.map fun t => mesh.triInvUV.getD t 0
  bendIdx : part.bendIdx.map (names vs) = bs.map fun b r => some (mesh.bend b r)
  bendWeight : part.bendWeight = bs.map fun b => mesh.bendWeight.getD b 0
  bendNTarget : part.bendNTarget = bs.map fun b => mesh.bendNTarget.getD b 0
  attachVert : part.attachVert.map (vs[·]?) = as.map fun a => some (mesh.attach a)
  attachFixed : part.attachFixed = as.map fun a => mesh.attachFixed.getD a 0
  faces : part.faces = part.triIdx

variable (mesh : ClothMesh α)

/-- The part with these elements, its faces apart, whose vertices stand at these places. -/
def cut (place : Nat → Nat) (vs ts bs as : List Nat) : ClothMesh α where
  nx := 0
  ny := 0
  width := 0
  height := 0
  positions := vs.map fun v => mesh.positions.getD v 0
  mass := vs.map fun v => mesh.mass.getD v 0
  triIdx := ts.map fun t r => place (mesh.tri t r)
  triInvUV := ts.map fun t => mesh.triInvUV.getD t 0
  bendIdx := bs.map fun b r => place (mesh.bend b r)
  bendWeight := bs.map fun b => mesh.bendWeight.getD b 0
  bendNTarget := bs.map fun b => mesh.bendNTarget.getD b 0
  attachVert := as.map fun a => place (mesh.attach a)
  attachFixed := as.map fun a => mesh.attachFixed.getD a 0
  faces := []

/-- Triangles given to a part. -/
theorem foldl_pushTri (place : Nat → Nat) (ts : List Nat) (vs ts' bs as : List Nat) :
    ts.foldl (fun part t => pushTri mesh place t part) (cut mesh place vs ts' bs as) =
      cut mesh place vs (ts' ++ ts) bs as := by
  induction ts generalizing ts' with
  | nil => rw [List.append_nil, List.foldl_nil]
  | cons t ts inductionHypothesis =>
    have step : pushTri mesh place t (cut mesh place vs ts' bs as) =
        cut mesh place vs (ts' ++ [t]) bs as := by simp [pushTri, cut]
    rw [List.foldl_cons, step, inductionHypothesis, List.append_assoc, List.singleton_append]

/-- Bendings given to a part. -/
theorem foldl_pushBend (place : Nat → Nat) (bs : List Nat) (vs ts bs' as : List Nat) :
    bs.foldl (fun part b => pushBend mesh place b part) (cut mesh place vs ts bs' as) =
      cut mesh place vs ts (bs' ++ bs) as := by
  induction bs generalizing bs' with
  | nil => rw [List.append_nil, List.foldl_nil]
  | cons b bs inductionHypothesis =>
    have step : pushBend mesh place b (cut mesh place vs ts bs' as) =
        cut mesh place vs ts (bs' ++ [b]) as := by simp [pushBend, cut]
    rw [List.foldl_cons, step, inductionHypothesis, List.append_assoc, List.singleton_append]

/-- Attachments given to a part. -/
theorem foldl_pushAttach (place : Nat → Nat) (as : List Nat) (vs ts bs as' : List Nat) :
    as.foldl (fun part a => pushAttach mesh place a part) (cut mesh place vs ts bs as') =
      cut mesh place vs ts bs (as' ++ as) := by
  induction as generalizing as' with
  | nil => rw [List.append_nil, List.foldl_nil]
  | cons a as inductionHypothesis =>
    have step : pushAttach mesh place a (cut mesh place vs ts bs as') =
        cut mesh place vs ts bs (as' ++ [a]) := by simp [pushAttach, cut]
    rw [List.foldl_cons, step, inductionHypothesis, List.append_assoc, List.singleton_append]

/-- A part whose places are those of its vertices is the mesh at its elements. -/
theorem partOf_cut {place : Nat → Nat} {vs ts bs as : List Nat}
    (tri : ∀ t ∈ ts, ∀ r, vs[place (mesh.tri t r)]? = some (mesh.tri t r))
    (bend : ∀ b ∈ bs, ∀ r, vs[place (mesh.bend b r)]? = some (mesh.bend b r))
    (attach : ∀ a ∈ as, vs[place (mesh.attach a)]? = some (mesh.attach a)) :
    PartOf mesh vs ts bs as
      { cut mesh place vs ts bs as with faces := (cut mesh place vs ts bs as).triIdx } where
  positions := rfl
  mass := rfl
  triIdx := by
    simp only [cut, List.map_map]
    exact List.map_congr_left fun t member => funext fun r => tri t member r
  triInvUV := rfl
  bendIdx := by
    simp only [cut, List.map_map]
    exact List.map_congr_left fun b member => funext fun r => bend b member r
  bendWeight := rfl
  bendNTarget := rfl
  attachVert := by
    simp only [cut, List.map_map]
    exact List.map_congr_left fun a member => attach a member
  attachFixed := rfl
  faces := rfl

end Parts

end DressOn.Avbd.ClothGrid
