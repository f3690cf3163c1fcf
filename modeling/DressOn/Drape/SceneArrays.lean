import DressOn.Drape.Sim
import DressOn.Lib.Checked

/-!
# The arrays of a scene

`drape_scene.cpp` on the arrays it keeps: three numbers a vertex, three numbers an attachment, the
attachments of the pins, the fit set and the anchor loop one after the other. Arithmetic is exact,
and checked: a division by zero or the square root of a negative number gives nothing; a division
by a literal is not checked. Triangles and stencils are rows, and the attachments are as long as
their counts say, so `resize` to the pins is `take`.
-/

namespace DressOn.Drape

universe u

open DressOn.Avbd (Vec3)
open Checked (SquareRoot quotient normalized)

section Data

/-- `DrapeScene`. -/
structure DrapeScene (σ α : Type u) where
  nV : Nat
  rest : List α
  x0 : List α
  v0 : List α
  vertArea : List α
  tri : List (Fin 3 → Nat)
  triInvUV : List (Fin 4 → α)
  triArea : List α
  bendIdx : List (Fin 4 → Nat)
  bendW : List (Fin 4 → α)
  bendN : List α
  bendAreaSum : List α
  attachVert : List Nat
  attachFixed : List α
  radii : List α
  prims : List (Primitive σ α)
  nFit : Nat
  fitK : α
  fitGap : α
  fitRefresh : Int
  fitSimilarity : Bool
  fitAnchor : List Nat
  nAnchorAtt : Nat
  anchorK : α
  fitRestEvery : Int
  fitSettle : Int
  massD : List α
  mass : List α
  triK : List α
  bendK : List α
  attachK : List α
  /-- Three numbers an attachment. -/
  laid : attachFixed.length = 3 * attachVert.length
  /-- The fit set and the anchor loop are the last attachments. -/
  counts : nFit + nAnchorAtt ≤ attachVert.length

end Data

namespace DrapeScene

variable {σ α : Type u}

section Counts

variable (s : DrapeScene σ α)

/-- `nTri()`. -/
def nTri : Nat := s.triArea.length

/-- `nBend()`. -/
def nBend : Nat := s.bendN.length

/-- `nAttach()`. -/
def nAttach : Nat := s.attachVert.length

/-- `nPin()`. -/
def nPin : Nat := s.nAttach - s.nFit - s.nAnchorAtt

/-- The counts add up. -/
theorem nPin_add : s.nPin + s.nFit + s.nAnchorAtt = s.attachVert.length := by
  have counts := s.counts
  unfold nPin nAttach
  omega

end Counts

section Positions

variable [Field α]

/-- The numbers of vertex `v`. -/
def at3 (numbers : List α) (v : Nat) : Vec3 α := fun k => numbers.getD (3 * v + k) 0

/-- `restd`. -/
def restd (s : DrapeScene σ α) (v : Nat) : Vec3 α := at3 s.rest v

/-- The three numbers an attachment of each vertex starts from. -/
def targets (rest : List α) (verts : List Nat) : List α :=
  verts.flatMap fun v => [at3 rest v 0, at3 rest v 1, at3 rest v 2]

/-- A target has three numbers. -/
theorem length_targets (rest : List α) (verts : List Nat) :
    (targets rest verts).length = 3 * verts.length := by
  simp [targets, List.length_flatMap, Nat.mul_comm]

/-- Attachments of vertices at rest are appended. -/
def pushAttachments (s : DrapeScene σ α) (verts : List Nat) : DrapeScene σ α :=
  { s with
    attachVert := s.attachVert ++ verts
    attachFixed := s.attachFixed ++ targets s.rest verts
    laid := by
      rw [List.length_append, List.length_append, s.laid, length_targets]
      ring
    counts := by
      have counts := s.counts
      rw [List.length_append]
      omega }

end Positions

section Rest

variable [Field α] [LinearOrder α] (root : SquareRoot α)

/-- `Triangle::Triangle`: the inverse of the edges in their own frame, and the area. -/
def triangleRest (p0 p1 p2 : Vec3 α) : Option ((Fin 4 → α) × α) := do
  let e0 := p1 - p0
  let e1 := p2 - p0
  let P0 ← normalized root e0
  let P1 ← normalized root (e1 - (e1 ⬝ᵥ P0) • P0)
  let det := P0 ⬝ᵥ e0 * (P1 ⬝ᵥ e1) - P1 ⬝ᵥ e0 * (P0 ⬝ᵥ e1)
  let inv ← quotient 1 det
  return (![P1 ⬝ᵥ e1 * inv, -(P0 ⬝ᵥ e1) * inv, -(P1 ⬝ᵥ e0) * inv, P0 ⬝ᵥ e0 * inv], |det / 2|)

/-- `updateAreaMatrix`: a third of each triangle for each of its corners. -/
def areaMatrix (nV : Nat) (tri : List (Fin 3 → Nat)) (triArea : List α) : List α :=
  ((tri.zip triArea).flatMap fun e => (List.finRange 3).map fun r => (e.1 r, e.2 / 3)).foldl
    (fun areas corner => areas.modify corner.1 (· + corner.2)) (List.replicate nV 0)

/-- The edges of a triangle by their ends, each with the corner opposite. -/
def triEdges (id : Fin 3 → Nat) : List ((Nat × Nat) × Nat) :=
  [((0 : Fin 3), (1 : Fin 3), (2 : Fin 3)), (0, 2, 1), (1, 2, 0)].map fun (a, b, c) =>
    ((min (id a) (id b), max (id a) (id b)), id c)

/-- `std::less` of two pairs. -/
def pairLess (one two : Nat × Nat) : Bool :=
  decide (one.1 < two.1) || decide (one.1 = two.1) && decide (one.2 < two.2)

/-- `edges[key].push_back(opposite)` in a map ordered by its keys. -/
def pushBack (key : Nat × Nat) (opposite : Nat) :
    List ((Nat × Nat) × List Nat) → List ((Nat × Nat) × List Nat)
  | [] => [(key, [opposite])]
  | entry :: rest =>
      if pairLess key entry.1 then (key, [opposite]) :: entry :: rest
      else if pairLess entry.1 key then entry :: pushBack key opposite rest
      else (entry.1, entry.2 ++ [opposite]) :: rest

/-- The edges of a mesh with the corners opposite, in triangle order. -/
def edgeMap (tri : List (Fin 3 → Nat)) : List ((Nat × Nat) × List Nat) :=
  (tri.flatMap triEdges).foldl (fun edges e => pushBack e.1 e.2 edges) []

/-- The stencil of an edge: its first two opposite corners are used. -/
def stencil (entry : (Nat × Nat) × List Nat) : Option (Fin 4 → Nat) :=
  match entry.2 with
  | first :: second :: _ => some ![entry.1.1, entry.1.2, first, second]
  | _ => none

/-- A stencil at rest: its weights, its target and its two areas. -/
def bendRest (pos : Fin 4 → Vec3 α) : Option ((Fin 4 → α) × α × α) := do
  let l01 ← Checked.norm root (pos 1 - pos 0)
  let l02 ← Checked.norm root (pos 2 - pos 0)
  let l03 ← Checked.norm root (pos 3 - pos 0)
  let l12 ← Checked.norm root (pos 1 - pos 2)
  let l13 ← Checked.norm root (pos 1 - pos 3)
  let r0 := 1 / 2 * (l01 + l02 + l12)
  let A0 ← root.of (r0 * (r0 - l01) * (r0 - l02) * (r0 - l12))
  let r1 := 1 / 2 * (l01 + l13 + l03)
  let A1 ← root.of (r1 * (r1 - l01) * (r1 - l03) * (r1 - l13))
  let cot02 ← quotient (l01 * l01 - l02 * l02 + l12 * l12) (4 * A0)
  let cot12 ← quotient (l01 * l01 + l02 * l02 - l12 * l12) (4 * A0)
  let cot03 ← quotient (l01 * l01 - l03 * l03 + l13 * l13) (4 * A1)
  let cot13 ← quotient (l01 * l01 + l03 * l03 - l13 * l13) (4 * A1)
  let w := ![cot02 + cot03, cot12 + cot13, -(cot02 + cot12), -(cot03 + cot13)]
  let n ← Checked.norm root (∑ i, w i • pos i)
  return (w, n, A0 + A1)

/-- The triangles at a vertex: one for each corner there. -/
def incident (tri : List (Fin 3 → Nat)) (i : Nat) : List (Fin 3 → Nat) :=
  tri.flatMap fun id => ((List.finRange 3).filter fun r => id r = i).map fun _ => id

/-- `updateCollisionRadii`: half of the shortest edge at the vertex. -/
def radius (p : Nat → Vec3 α) (tri : List (Fin 3 → Nat)) (i : Nat) : Option α := do
  let minEdge ← (incident tri i).foldlM (fun minEdge id => do
    let p2 := if id 0 = i then id 2 else id 0
    let p3 := if id 1 = i then id 2 else id 1
    let first ← Checked.norm root (p p2 - p i)
    let second ← Checked.norm root (p p3 - p i)
    return min (min minEdge first) second) 100
  return minEdge / 2 - 1 / 100

/-- `scene_finish`. -/
def sceneFinish (s : DrapeScene σ α) : Option (DrapeScene σ α) := do
  let triangles ← s.tri.mapM fun id => triangleRest root (s.restd (id 0)) (s.restd (id 1))
    (s.restd (id 2))
  let bendIdx := (edgeMap s.tri).filterMap stencil
  let bends ← bendIdx.mapM fun idx => bendRest root fun i => s.restd (idx i)
  let radii ← (List.range s.nV).mapM fun i => radius root s.restd s.tri i
  return { s with
    triInvUV := triangles.map Prod.fst
    triArea := triangles.map Prod.snd
    vertArea := areaMatrix s.nV s.tri (triangles.map Prod.snd)
    bendIdx := bendIdx
    bendW := bends.map Prod.fst
    bendN := bends.map fun e => e.2.1
    bendAreaSum := bends.map fun e => e.2.2
    radii := radii }

end Rest

section Material

variable [Field α] [LinearOrder α] (root : SquareRoot α)

/-- `applyMaterial`'s `attachK`: all at `kAttach`, then the fit set, then the anchor loop. -/
def attachStiffness (s : DrapeScene σ α) (cfg : Upload α) : List α :=
  let all := List.replicate s.nAttach cfg.kAttach
  let fit := (List.range' s.nPin s.nFit).foldl
    (fun attachK a => attachK.set a (s.fitK * s.vertArea.getD (s.attachVert.getD a 0) 0)) all
  (List.range' (s.nPin + s.nFit) (s.nAttach - (s.nPin + s.nFit))).foldl
    (fun attachK a => attachK.set a s.anchorK) fit

/-- `DrapeScene::applyMaterial`. -/
def applyMaterial (s : DrapeScene σ α) (cfg : Upload α) : Option (DrapeScene σ α) := do
  let massD := (List.range s.nV).map fun i => s.vertArea.getD i 0 * cfg.density
  let triK ← s.triArea.mapM fun area => do
    let c ← root.of (area * cfg.kTri)
    return if cfg.rawStiffness then cfg.kTri else c * c
  let bendK ← s.bendAreaSum.mapM fun areaSum => do
    let c ← root.of (← quotient (cfg.kBend * 3) areaSum)
    return if cfg.rawStiffness then cfg.kBend else c * c
  return { s with
    massD := massD
    mass := massD
    triK := triK
    bendK := bendK
    attachK := s.attachStiffness cfg }

/-- One vertex of the predictor: with the whole velocity, and with the damped one. -/
def predictVertex (cfg : Config α) (massD : α) (x v : Vec3 α) : Option (Vec3 α × Vec3 α) := do
  let minv ← quotient 1 massD
  let fext := massD • cfg.gravity + cfg.wind
  let s := x + cfg.h • v + (cfg.h * cfg.h * minv) • fext
  return (s, if cfg.damp = 1 then s
    else x + (cfg.h * cfg.damp) • v + (cfg.h * cfg.h * minv) • fext)

/-- `predict`: the predicted positions, and those after the friction blend. -/
def predict (geometry : Geometry σ α) (s : DrapeScene σ α) (cfg : Config α)
    (x v : Nat → Vec3 α) : Option (List (Vec3 α) × List (Vec3 α)) := do
  let rows ← (List.range s.nV).mapM fun i => predictVertex cfg (s.massD.getD i 0) (x i) (v i)
  let sb i := (rows[i]?.map Prod.snd).getD 0
  let blended :=
    if cfg.contact && cfg.frictionPred then
      (forContacts s.nV s.prims (blendTurn geometry x v) (sb, [])).1
    else sb
  return (rows.map Prod.fst, (List.range s.nV).map blended)

end Material

section Mesh

variable [Field α] [LinearOrder α] (root : SquareRoot α)

/-- An index does not lie in the mesh. -/
def outside (nV : Nat) (index : Int) : Bool := decide (index < 0) || decide (nV ≤ index.toNat)

/-- The triangles of a flat list. -/
def triples (tris : List Int) : List (Fin 3 → Nat) :=
  (List.range (tris.length / 3)).map fun t r => (tris.getD (3 * t + r) 0).toNat

/-- `DrapeScene()` with the primitives kept, the positions and the triangles. -/
def unfinished (prims : List (Primitive σ α)) (pos : List α) (tris : List Int) :
    DrapeScene σ α where
  nV := pos.length / 3
  rest := pos
  x0 := pos
  v0 := List.replicate pos.length 0
  vertArea := []
  tri := triples tris
  triInvUV := []
  triArea := []
  bendIdx := []
  bendW := []
  bendN := []
  bendAreaSum := []
  attachVert := []
  attachFixed := []
  radii := []
  prims := prims
  nFit := 0
  fitK := 0
  fitGap := 0
  fitRefresh := 1
  fitSimilarity := false
  fitAnchor := []
  nAnchorAtt := 0
  anchorK := 100
  fitRestEvery := 4
  fitSettle := 0
  massD := []
  mass := []
  triK := []
  bendK := []
  attachK := []
  laid := rfl
  counts := Nat.le_refl 0

/-- `scene_mesh`; every exact number is finite. -/
def sceneMesh (prims : List (Primitive σ α)) (pos : List α) (tris pins : List Int) :
    Except String (Option (DrapeScene σ α)) :=
  if pos.length < 9 ∨ pos.length % 3 ≠ 0 then
    .error "positions must be 3 floats per vertex, at least 3 vertices"
  else if tris = [] ∨ tris.length % 3 ≠ 0 then
    .error "triangles must be 3 indices each"
  else if tris.any (outside (pos.length / 3)) then
    .error "triangle index out of range"
  else if pins.any (outside (pos.length / 3)) then
    .error "pin index out of range"
  else
    .ok ((sceneFinish root (unfinished prims pos tris)).map fun s =>
      s.pushAttachments (pins.map Int.toNat))

end Mesh

end DrapeScene

end DressOn.Drape
