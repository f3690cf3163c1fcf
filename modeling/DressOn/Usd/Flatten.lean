import DressOn.Lib.Strides
import Mathlib.Data.List.GetD
import Mathlib.Algebra.GroupWithZero.Nat

/-!
# Flattening meshes

`add_mesh` of `usd_core.cpp`: a mesh prim, with polygons of any sizes, holes and primvars by the
point or by the corner, goes behind the meshes already in the guest's flat tables as triangles.
Each corner of the triangles has the point, the normal and the st of the corner it came from.
-/

namespace DressOn.Usd.Flatten

open DressOn.Windows DressOn.Strides

variable {φ β : Type}

/-! ## The code -/

/-- `GfVec3f`. -/
abbrev Vec3f (φ : Type) := φ × φ × φ

/-- `GfVec2f`. -/
abbrev Vec2f (φ : Type) := φ × φ

/-- The components of a vector. -/
def flat3 (v : Vec3f φ) : List φ := [v.1, v.2.1, v.2.2]

/-- The components of a pair. -/
def flat2 (v : Vec2f φ) : List φ := [v.1, v.2]

/-- An interpolation token. -/
inductive Interpolation where
  | vertex
  | varying
  | faceVarying
  | other (name : String)
  deriving DecidableEq

/-- `GetString`. -/
def Interpolation.getString : Interpolation → String
  | .vertex => "vertex"
  | .varying => "varying"
  | .faceVarying => "faceVarying"
  | .other name => name

/-- `UsdGeomPrimvar`, of values of one type. -/
structure Primvar (β : Type) where
  hasValue : Bool
  interpolation : Interpolation
  /-- What `ComputeFlattened` gives, nothing where it fails. -/
  flattened : Option (List β)

/-- `read_pv`: the values of a primvar and their interpolation. -/
def readPv (pv : Option (Primvar β)) : Option (List β × Interpolation) := do
  let pv ← pv
  if !pv.hasValue then none
  else
    let values ← pv.flattened
    if values.isEmpty then none else some (values, pv.interpolation)

/-- What `add_mesh` reads of a `UsdGeomMesh`. -/
structure MeshPrim (φ : Type) where
  points : List (Vec3f φ)
  faceVertexCounts : List Int
  faceVertexIndices : List Int
  holeIndices : List Int
  /-- `primvars:normals`. -/
  normalsPrimvar : Option (Primvar (Vec3f φ))
  /-- The attribute `normals`. -/
  normals : Option (List (Vec3f φ))
  normalsInterpolation : Interpolation
  /-- `primvars:st`. -/
  st : Option (Primvar (Vec2f φ))
  /-- The primvars with values, nothing where one is of neither `texCoord2f[]` nor `float2[]`. -/
  primvars : List (Option (Primvar (Vec2f φ)))
  /-- The orientation is `leftHanded`. -/
  leftHanded : Bool
  /-- The guest's heap ends below 4 GiB, so that a corner's number is an `int32_t`. -/
  inHeap : faceVertexIndices.length ≤ 2 ^ 31

/-- `MeshRec`. -/
structure MeshRec where
  ptOff : Nat
  npts : Nat
  nrmOff : Nat
  uvOff : Nat
  idxOff : Nat
  ntris : Nat
  hasNormals : Bool
  hasUvs : Bool
  indexed : Bool
  deriving DecidableEq

/-- The flat tables: `g_points`, `g_normals`, `g_uvs`, `g_indices` and `g_meshes`. -/
structure Tables (φ : Type) where
  points : List φ
  normals : List φ
  uvs : List φ
  indices : List Int
  meshes : List MeshRec
  deriving DecidableEq

/-- `(int32_t)c`. -/
def toInt32 (c : Nat) : Int := (c : Int).bmod (2 ^ 32)

/-- The corners that the counts add up to, nothing where one is negative. -/
def countCorners (counts : List Int) : Option Nat :=
  counts.foldlM (fun corners c => if c < 0 then none else some (corners + c.toNat)) 0

/-- `nrm` and `nrm_interp`: `primvars:normals` wins over the attribute. -/
def MeshPrim.normalValues (mesh : MeshPrim φ) : List (Vec3f φ) × Interpolation :=
  (readPv mesh.normalsPrimvar).getD (mesh.normals.getD [], mesh.normalsInterpolation)

/-- `st` and `st_interp`: `primvars:st`, else the first primvar of the right type that reads. -/
def MeshPrim.stValues (mesh : MeshPrim φ) : List (Vec2f φ) × Interpolation :=
  ((readPv mesh.st).or (mesh.primvars.findSome? readPv)).getD ([], .other "")

/-- `per_point_ok`. -/
def perPointOk (points : Nat) (interpolation : Interpolation) (n : Nat) : Bool :=
  (interpolation == .vertex || interpolation == .varying) && n == points

/-- `per_corner_ok`. -/
def perCornerOk (corners : Nat) (interpolation : Interpolation) (n : Nat) : Bool :=
  interpolation == .faceVarying && n == corners

/-- The values that are kept, and whether they are by the corner. -/
structure Kept (β : Type) where
  values : List β
  fv : Bool

/-- What is kept of normals or st. Values that fit neither way are dropped with a warning. -/
def keep (label : String) (points corners : Nat) (given : List β × Interpolation)
    (warn : String) : Kept β × String :=
  if given.1.isEmpty then (⟨[], false⟩, warn)
  else
    let pt := perPointOk points given.2 given.1.length
    let fv := perCornerOk corners given.2 given.1.length
    if !pt && !fv then
      (⟨[], false⟩, label ++ " dropped: interpolation " ++ given.2.getString ++ " with " ++
        toString given.1.length ++ " values")
    else (⟨given.1, fv⟩, warn)

/-- There are values. -/
def Kept.has (kept : Kept β) : Bool := !kept.values.isEmpty

/-- The value for a point and a corner, if there are values. Nothing for a read out of range. -/
def Kept.read (kept : Kept β) (p c : Nat) : Option (Option β) :=
  if kept.has then (kept.values[if kept.fv then c else p]?).map some else some none

/-- `push_pt`. -/
def pushPt (mesh : MeshPrim φ) (nrm : Kept (Vec3f φ)) (st : Kept (Vec2f φ)) (tables : Tables φ)
    (p c : Nat) : Option (Tables φ) := do
  let point ← mesh.points[p]?
  let n ← nrm.read p c
  let t ← st.read p c
  return { tables with
    points := tables.points ++ flat3 point
    normals := tables.normals ++ n.elim [] flat3
    uvs := tables.uvs ++ t.elim [] flat2 }

/-- The vertices: one for each point, or one for each corner. -/
def pushAll (mesh : MeshPrim φ) (nrm : Kept (Vec3f φ)) (st : Kept (Vec2f φ)) (indexed : Bool)
    (corners : Nat) (tables : Tables φ) : Option (Tables φ) :=
  if indexed then
    (List.range mesh.points.length).foldlM (fun filled p => pushPt mesh nrm st filled p 0) tables
  else
    (List.range corners).foldlM (fun filled c => do
      let p ← mesh.faceVertexIndices[c]?
      pushPt mesh nrm st filled p.toNat c) tables

/-- `hole`: the faces that a hole index names. Indices of no face are skipped. -/
def holes (faces : Nat) (holeIndices : List Int) : List Bool :=
  holeIndices.foldl
    (fun hole h => if 0 ≤ h ∧ h.toNat < hole.length then hole.set h.toNat true else hole)
    (List.replicate faces false)

/-- The index that a corner is written as. -/
def MeshPrim.written (mesh : MeshPrim φ) (indexed : Bool) (c : Nat) : Option Int :=
  if indexed then mesh.faceVertexIndices[c]? else some (toInt32 c)

/-- The triangles so far, and the first corner of the next face. -/
structure Fanned where
  c0 : Nat
  indices : List Int
  ntris : Nat

/-- The triangle of a fan with `i` one more than `k`. -/
def MeshPrim.addTriangle (mesh : MeshPrim φ) (indexed : Bool) (soFar : Fanned) (k : Nat) :
    Option Fanned := do
  let a ← mesh.written indexed soFar.c0
  let b ← mesh.written indexed (soFar.c0 + (k + 1))
  let c ← mesh.written indexed (soFar.c0 + (k + 1) + 1)
  let corners := if mesh.leftHanded then [a, c, b] else [a, b, c]
  return { soFar with indices := soFar.indices ++ corners, ntris := soFar.ntris + 1 }

/-- The fan of a face. A hole has none, but its corners are passed all the same. -/
def MeshPrim.addFace (mesh : MeshPrim φ) (indexed : Bool) (hole : List Bool) (soFar : Fanned)
    (f : Nat) : Option Fanned := do
  let count ← mesh.faceVertexCounts[f]?
  let isHole ← hole[f]?
  let n := count.toNat
  let fanned ←
    if !isHole && decide (3 ≤ n) then
      (List.range (n - 2)).foldlM (mesh.addTriangle indexed) soFar
    else some soFar
  return { fanned with c0 := fanned.c0 + n }

/-- `add_mesh` after its checks. -/
def MeshPrim.fill (mesh : MeshPrim φ) (tables : Tables φ) (corners : Nat) :
    Option (Tables φ × String) := do
  let (nrm, warn) := keep "normals" mesh.points.length corners mesh.normalValues ""
  let (st, warn) := keep "st" mesh.points.length corners mesh.stValues warn
  let indexed := !(nrm.fv || st.fv)
  let filled ← pushAll mesh nrm st indexed corners tables
  let hole := holes mesh.faceVertexCounts.length mesh.holeIndices
  let fanned ← (List.range mesh.faceVertexCounts.length).foldlM (mesh.addFace indexed hole)
    ⟨0, tables.indices, 0⟩
  let r : MeshRec := {
    ptOff := tables.points.length
    npts := if indexed then mesh.points.length else corners
    nrmOff := tables.normals.length
    uvOff := tables.uvs.length
    idxOff := tables.indices.length
    ntris := fanned.ntris
    hasNormals := nrm.has
    hasUvs := st.has
    indexed }
  return ({ filled with indices := fanned.indices, meshes := tables.meshes ++ [r] }, warn)

/-- `add_mesh`: the tables and the warning, or why the prim is refused. Nothing for a read out of
range. -/
def addMesh (tables : Tables φ) (mesh : MeshPrim φ) :
    Option (Except String (Tables φ × String)) :=
  match countCorners mesh.faceVertexCounts with
  | none => some (.error "faceVertexCounts has a negative count")
  | some corners =>
    if corners ≠ mesh.faceVertexIndices.length then
      some (.error ("faceVertexCounts sum " ++ toString corners ++ " != faceVertexIndices " ++
        toString mesh.faceVertexIndices.length))
    else
      match mesh.faceVertexIndices.find? fun i => i < 0 || mesh.points.length ≤ i.toNat with
      | some i =>
        some (.error ("faceVertexIndices out of range (" ++ toString i ++ " of " ++
          toString mesh.points.length ++ " points)"))
      | none => (mesh.fill tables corners).map .ok

/-! ## What the corners are -/

namespace MeshPrim

variable (mesh : MeshPrim φ)

/-- The point of a corner. -/
def pointAt (c : Nat) : Option (Vec3f φ) := do
  let i ← mesh.faceVertexIndices[c]?
  mesh.points[i.toNat]?

/-- The value of normals or st at a corner: by its point, by the corner itself, or none. -/
def valueAt (given : List β × Interpolation) (c : Nat) : Option β :=
  match given.2 with
  | .vertex | .varying =>
    if given.1.length = mesh.points.length then do
      let i ← mesh.faceVertexIndices[c]?
      given.1[i.toNat]?
    else none
  | .faceVarying => if given.1.length = mesh.faceVertexIndices.length then given.1[c]? else none
  | .other _ => none

/-- The corners of the polygons before a polygon. -/
def start (f : Nat) : Nat := ((mesh.faceVertexCounts.take f).map Int.toNat).sum

/-- A triangle of the fan from a corner, the other way round for a left-handed mesh. -/
def fanTriangle (c0 k : Nat) : List Nat :=
  if mesh.leftHanded then [c0, c0 + (k + 1) + 1, c0 + (k + 1)]
  else [c0, c0 + (k + 1), c0 + (k + 1) + 1]

/-- The corners of the triangles of a polygon: a fan unless it is a hole. -/
def polygonFan (f : Nat) : List Nat :=
  if (f : Int) ∈ mesh.holeIndices then []
  else (List.range ((mesh.faceVertexCounts.getD f 0).toNat - 2)).flatMap
    (mesh.fanTriangle (mesh.start f))

/-- The corners of the triangles of the first polygons. -/
def fansBefore (f : Nat) : List Nat := (List.range f).flatMap mesh.polygonFan

/-- The corners of all the triangles, three for each. -/
def fans : List Nat := mesh.fansBefore mesh.faceVertexCounts.length

end MeshPrim

section Reading

variable (tables : Tables φ) (r : MeshRec)

/-- A point of a mesh in the tables. -/
def Tables.point (v : Nat) : List φ := view tables.points (r.ptOff + 3 * v, 3)

/-- A normal of a mesh in the tables, if it has them. -/
def Tables.normal (v : Nat) : Option (List φ) :=
  if r.hasNormals then some (view tables.normals (r.nrmOff + 3 * v, 3)) else none

/-- An st of a mesh in the tables, if it has them. -/
def Tables.uv (v : Nat) : Option (List φ) :=
  if r.hasUvs then some (view tables.uvs (r.uvOff + 2 * v, 2)) else none

/-- The indices of a mesh in the tables. -/
def Tables.corners : List Int := view tables.indices (r.idxOff, 3 * r.ntris)

end Reading

/-- An index of a mesh in the tables stands for a corner of its prim. -/
structure Carries (tables : Tables φ) (r : MeshRec) (mesh : MeshPrim φ) (c : Nat) (index : Int) :
    Prop where
  nonneg : 0 ≤ index
  below : index < r.npts
  point : some (tables.point r index.toNat) = (mesh.pointAt c).map flat3
  normal : tables.normal r index.toNat = (mesh.valueAt mesh.normalValues c).map flat3
  uv : tables.uv r index.toNat = (mesh.valueAt mesh.stValues c).map flat2

/-- A mesh behind those already there: what was in the tables stays, and the new indices are those
of the corners of its triangles, one by one. -/
structure Flattened (before after : Tables φ) (mesh : MeshPrim φ) (r : MeshRec) : Prop where
  meshes : after.meshes = before.meshes ++ [r]
  points : before.points <+: after.points
  normals : before.normals <+: after.normals
  uvs : before.uvs <+: after.uvs
  indices : after.indices = before.indices ++ after.corners r
  corners : List.Forall₂ (Carries after r mesh) mesh.fans (after.corners r)

/-! ## The checks -/

/-- The counts are added up. -/
theorem sum_of_countCorners {counts : List Int} {corners : Nat}
    (counted : countCorners counts = some corners) : corners = (counts.map Int.toNat).sum := by
  have general : ∀ (counts : List Int) (first : Nat),
      counts.foldlM (fun corners c => if c < 0 then none else some (corners + c.toNat)) first =
        some corners → corners = first + (counts.map Int.toNat).sum := by
    intro counts
    induction counts with
    | nil =>
      intro first done
      cases done
      rfl
    | cons c counts inductionHypothesis =>
      intro first done
      rw [List.foldlM_cons] at done
      by_cases negative : c < 0
      · rw [if_pos negative] at done
        cases done
      · rw [if_neg negative] at done
        rw [inductionHypothesis _ done, List.map_cons, List.sum_cons, Nat.add_assoc]
  simpa using general counts 0 counted

/-- A face is a hole just where a hole index names it. -/
theorem holes_getElem? (holeIndices : List Int) {faces f : Nat} (inside : f < faces) :
    (holes faces holeIndices)[f]? = some (decide ((f : Int) ∈ holeIndices)) := by
  have general : ∀ (holeIndices : List Int) (hole : List Bool),
      (holeIndices.foldl
        (fun hole h => if 0 ≤ h ∧ h.toNat < hole.length then hole.set h.toNat true else hole)
        hole)[f]? = hole[f]?.map fun named => named || decide ((f : Int) ∈ holeIndices) := by
    intro holeIndices
    induction holeIndices with
    | nil => simp
    | cons h holeIndices inductionHypothesis =>
      intro hole
      rw [List.foldl_cons, inductionHypothesis]
      by_cases this : (f : Int) = h
      · subst this
        by_cases short : f < hole.length
        · simp [short]
        · simp [short]
      · have other : h.toNat < hole.length ∧ 0 ≤ h → h.toNat ≠ f := by omega
        split
        next named =>
          rw [List.getElem?_set_ne (other named.symm)]
          simp [this]
        next => simp [this]
  rw [holes, general, List.getElem?_replicate, if_pos inside]
  simp

/-! ## Values -/

/-- Values are dropped, or kept by the point or by the corner. -/
inductive KeptBy (points corners : Nat) (given : List β × Interpolation) : Kept β → Prop
  | absent (unfit : given.1 = [] ∨ (perPointOk points given.2 given.1.length = false ∧
      perCornerOk corners given.2 given.1.length = false)) :
      KeptBy points corners given ⟨[], false⟩
  | point (filled : given.1 ≠ []) (fits : perPointOk points given.2 given.1.length = true) :
      KeptBy points corners given ⟨given.1, false⟩
  | corner (filled : given.1 ≠ []) (fits : perCornerOk corners given.2 given.1.length = true) :
      KeptBy points corners given ⟨given.1, true⟩

theorem keptBy_keep (label : String) (points corners : Nat) (given : List β × Interpolation)
    (warn : String) : KeptBy points corners given (keep label points corners given warn).1 := by
  rw [keep]
  by_cases filled : given.1 = []
  · rw [if_pos (List.isEmpty_iff.mpr filled)]
    exact .absent (.inl filled)
  · rw [if_neg (mt List.isEmpty_iff.mp filled)]
    dsimp only
    cases pt : perPointOk points given.2 given.1.length with
    | true =>
      cases fv : perCornerOk corners given.2 given.1.length with
      | true => exact .corner filled fv
      | false => exact .point filled pt
    | false =>
      cases fv : perCornerOk corners given.2 given.1.length with
      | true => exact .corner filled fv
      | false => exact .absent (.inr ⟨pt, fv⟩)

variable {points corners : Nat} {given : List β × Interpolation} {kept : Kept β}

/-- What is kept has a value for each point and corner, or for each point where it is not by the
corner. -/
theorem KeptBy.exists_read (keptBy : KeptBy points corners given kept) {p c : Nat}
    (point : p < points) (corner : kept.fv = true → c < corners) :
    ∃ value, kept.read p c = some value := by
  cases keptBy with
  | absent => exact ⟨none, rfl⟩
  | point filled fits =>
    have length : given.1.length = points := by
      simp only [perPointOk, Bool.and_eq_true, beq_iff_eq] at fits
      exact fits.2
    rw [Kept.read, if_pos (by simpa [Kept.has] using filled)]
    exact ⟨_, by rw [if_neg Bool.false_ne_true, List.getElem?_eq_getElem (length ▸ point)]; rfl⟩
  | corner filled fits =>
    have length : given.1.length = corners := by
      simp only [perCornerOk, Bool.and_eq_true, beq_iff_eq] at fits
      exact fits.2
    rw [Kept.read, if_pos (by simpa [Kept.has] using filled)]
    exact ⟨_, by rw [if_pos rfl, List.getElem?_eq_getElem (length ▸ corner rfl)]; rfl⟩

/-- For a corner it is the value at that corner. -/
theorem KeptBy.read_at {mesh : MeshPrim φ}
    (keptBy : KeptBy mesh.points.length mesh.faceVertexIndices.length given kept) {c : Nat}
    {i : Int} (at_c : mesh.faceVertexIndices[c]? = some i) (inside : i.toNat < mesh.points.length)
    {c' : Nat} (own : kept.fv = true → c' = c) :
    kept.read i.toNat c' = some (mesh.valueAt given c) := by
  have below : c < mesh.faceVertexIndices.length := (List.getElem?_eq_some_iff.mp at_c).1
  obtain ⟨values, interpolation⟩ := given
  cases keptBy with
  | absent unfit =>
    rw [Kept.read, if_neg (by simp [Kept.has])]
    rcases unfit with rfl | ⟨pt, fv⟩
    · cases interpolation <;> simp [MeshPrim.valueAt, at_c]
    · cases interpolation <;> simp_all [MeshPrim.valueAt, perPointOk, perCornerOk]
  | point filled fits =>
    simp only [perPointOk, Bool.and_eq_true, Bool.or_eq_true, beq_iff_eq] at fits
    obtain ⟨by_point, length⟩ := fits
    have value : mesh.valueAt (values, interpolation) c = values[i.toNat]? := by
      rcases by_point with rfl | rfl <;> simp [MeshPrim.valueAt, at_c, length]
    rw [value, Kept.read, if_pos (by simpa [Kept.has] using filled), if_neg Bool.false_ne_true,
      List.getElem?_eq_getElem (length ▸ inside)]
    rfl
  | corner filled fits =>
    simp only [perCornerOk, Bool.and_eq_true, beq_iff_eq] at fits
    obtain ⟨rfl, length⟩ := fits
    have value : mesh.valueAt (values, .faceVarying) c = values[c]? := by
      simp [MeshPrim.valueAt, length]
    rw [value, own rfl, Kept.read, if_pos (by simpa [Kept.has] using filled), if_pos rfl,
      List.getElem?_eq_getElem (length ▸ below)]
    rfl

/-! ## The vertices -/

section Vertices

variable (mesh : MeshPrim φ) (nrm : Kept (Vec3f φ)) (st : Kept (Vec2f φ))

/-- The point and the corner of a vertex. -/
def MeshPrim.source (indexed : Bool) (v : Nat) : Nat × Nat :=
  if indexed then (v, 0) else ((mesh.faceVertexIndices.getD v 0).toNat, v)

/-- The vertices of a mesh. -/
def MeshPrim.vertices (indexed : Bool) : Nat :=
  if indexed then mesh.points.length else mesh.faceVertexIndices.length

/-- The tables after some vertices. -/
def pushed (indexed : Bool) (tables : Tables φ) (k : Nat) : Tables φ :=
  { tables with
    points := tables.points ++ (List.range k).flatMap fun v =>
      (mesh.points[(mesh.source indexed v).1]?).elim [] flat3
    normals := tables.normals ++ (List.range k).flatMap fun v =>
      ((nrm.read (mesh.source indexed v).1 (mesh.source indexed v).2).bind id).elim [] flat3
    uvs := tables.uvs ++ (List.range k).flatMap fun v =>
      ((st.read (mesh.source indexed v).1 (mesh.source indexed v).2).bind id).elim [] flat2 }

variable {mesh nrm st}

/-- One more vertex. -/
theorem pushPt_pushed {indexed : Bool} (tables : Tables φ) {k p c : Nat}
    (source : mesh.source indexed k = (p, c)) (inside : p < mesh.points.length)
    (has_n : ∃ n, nrm.read p c = some n) (has_t : ∃ t, st.read p c = some t) :
    pushPt mesh nrm st (pushed mesh nrm st indexed tables k) p c =
      some (pushed mesh nrm st indexed tables (k + 1)) := by
  obtain ⟨n, n_eq⟩ := has_n
  obtain ⟨t, t_eq⟩ := has_t
  have point_eq := List.getElem?_eq_getElem inside
  simp only [pushPt, point_eq, n_eq, t_eq, pushed, flatMap_range_succ, source, List.append_assoc,
    Option.bind_eq_bind, Option.bind_some, Option.elim_some, id_eq, Option.pure_def]

theorem pushed_zero (indexed : Bool) (tables : Tables φ) :
    pushed mesh nrm st indexed tables 0 = tables := by
  simp [pushed]

/-- The vertices of a mesh: one for each point where all values are by the point, else one for each
corner. -/
theorem pushAll_eq {given : List (Vec3f φ) × Interpolation}
    {given' : List (Vec2f φ) × Interpolation}
    (nrmKept : KeptBy mesh.points.length mesh.faceVertexIndices.length given nrm)
    (stKept : KeptBy mesh.points.length mesh.faceVertexIndices.length given' st)
    (inside : ∀ i ∈ mesh.faceVertexIndices, i.toNat < mesh.points.length) (tables : Tables φ)
    {indexed : Bool} (layout : indexed = !(nrm.fv || st.fv)) :
    pushAll mesh nrm st indexed mesh.faceVertexIndices.length tables =
      some (pushed mesh nrm st indexed tables (mesh.vertices indexed)) := by
  rw [pushAll]
  cases indexed with
  | true =>
    obtain ⟨nrm_pt, st_pt⟩ : nrm.fv = false ∧ st.fv = false := by simpa using layout
    have loop : (List.range mesh.points.length).foldlM
        (fun filled p => pushPt mesh nrm st filled p 0) (pushed mesh nrm st true tables 0) = _ :=
      foldlM_range (pushed mesh nrm st true tables) _ fun p less =>
        pushPt_pushed tables rfl less (nrmKept.exists_read less (by simp [nrm_pt]))
          (stKept.exists_read less (by simp [st_pt]))
    rw [pushed_zero] at loop
    exact loop
  | false =>
    have loop : (List.range mesh.faceVertexIndices.length).foldlM (fun filled c => do
        let p ← mesh.faceVertexIndices[c]?
        pushPt mesh nrm st filled p.toNat c) (pushed mesh nrm st false tables 0) = _ :=
      foldlM_range (pushed mesh nrm st false tables) _ fun c less => by
        have at_c := List.getElem?_eq_getElem less
        have point := inside _ (List.getElem_mem less)
        rw [at_c]
        exact pushPt_pushed tables
          (by rw [MeshPrim.source, if_neg Bool.false_ne_true, List.getD_eq_getElem _ _ less]) point
          (nrmKept.exists_read point fun _ => less) (stKept.exists_read point fun _ => less)
    rw [pushed_zero] at loop
    exact loop

/-- What a kept value reads as in its table. -/
theorem view_kept {kept : Kept β} {width n : Nat} {source : Nat → Nat × Nat} (flat : β → List φ)
    (wide : ∀ value, (flat value).length = width) (table : List φ)
    (reads : ∀ v < n, ∃ value, kept.read (source v).1 (source v).2 = some value) {v : Nat}
    (inside : v < n) {value : Option β}
    (value_eq : kept.read (source v).1 (source v).2 = some value) :
    (if kept.has then
      some (view (table ++ (List.range n).flatMap fun v =>
        ((kept.read (source v).1 (source v).2).bind id).elim [] flat)
        (table.length + width * v, width))
    else none) = value.map flat := by
  cases has : kept.has with
  | false =>
    rw [Kept.read, if_neg (by simp [has])] at value_eq
    cases value_eq
    rfl
  | true =>
    have present : ∀ {v value}, kept.read (source v).1 (source v).2 = some value →
        ∃ b, value = some b := fun read => by
      rw [Kept.read, if_pos has] at read
      obtain ⟨b, -, rfl⟩ := Option.map_eq_some_iff.mp read
      exact ⟨b, rfl⟩
    rw [if_pos rfl, view_flatMap_range table (fun k less => ?_) inside, value_eq]
    · obtain ⟨b, rfl⟩ := present value_eq
      rfl
    · obtain ⟨value, read⟩ := reads k less
      obtain ⟨b, rfl⟩ := present read
      rw [read]
      exact wide b

end Vertices

/-! ## The triangles -/

namespace MeshPrim

variable (mesh : MeshPrim φ) (indexed : Bool)

/-- The index of a corner. -/
def indexOf (c : Nat) : Int := if indexed then mesh.faceVertexIndices.getD c 0 else c

variable {mesh indexed}

/-- The cast keeps a small number. -/
theorem toInt32_of_lt {c : Nat} (small : c < 2 ^ 31) : toInt32 c = c :=
  Int.bmod_eq_of_le_mul_two (by omega) (by omega)

theorem written_eq {c : Nat} (inside : c < mesh.faceVertexIndices.length) :
    mesh.written indexed c = some (mesh.indexOf indexed c) := by
  cases indexed with
  | true =>
    simp only [written, indexOf, if_true, List.getD_eq_getElem?_getD,
      List.getElem?_eq_getElem inside, Option.getD_some]
  | false =>
    rw [written, if_neg Bool.false_ne_true, toInt32_of_lt (inside.trans_le mesh.inHeap), indexOf,
      if_neg Bool.false_ne_true]

theorem start_succ {f : Nat} (inside : f < mesh.faceVertexCounts.length) :
    mesh.start (f + 1) = mesh.start f + (mesh.faceVertexCounts.getD f 0).toNat := by
  rw [start, List.take_add_one, List.map_append, List.sum_append, List.getElem?_eq_getElem inside,
    List.getD_eq_getElem _ _ inside]
  simp [start]

/-- Polygons end inside the corners. -/
theorem start_add_le {f : Nat} (inside : f < mesh.faceVertexCounts.length) :
    mesh.start f + (mesh.faceVertexCounts.getD f 0).toNat ≤
      (mesh.faceVertexCounts.map Int.toNat).sum := by
  rw [← start_succ inside, start]
  conv_rhs => rw [← List.take_append_drop (f + 1) mesh.faceVertexCounts, List.map_append,
    List.sum_append]
  exact Nat.le_add_right _ _

theorem length_fanTriangle (c0 k : Nat) : (mesh.fanTriangle c0 k).length = 3 := by
  rw [fanTriangle]
  split <;> rfl

/-- The corners of a triangle are corners of its polygon. -/
theorem of_mem_fanTriangle {c0 n k c : Nat} (inside : k < n - 2)
    (member : c ∈ mesh.fanTriangle c0 k) : c < c0 + n := by
  rw [fanTriangle] at member
  split at member <;> simp only [List.mem_cons, List.not_mem_nil, or_false] at member <;> omega

/-- Three corners for each triangle. -/
theorem dvd_length_polygonFan (f : Nat) : 3 ∣ (mesh.polygonFan f).length := by
  rw [polygonFan]
  split
  · exact ⟨0, rfl⟩
  · exact ⟨_, length_flatMap_range fun k _ => length_fanTriangle _ k⟩

theorem dvd_length_fansBefore (f : Nat) : 3 ∣ (mesh.fansBefore f).length := by
  induction f with
  | zero => exact ⟨0, rfl⟩
  | succ f inductionHypothesis =>
    rw [fansBefore, flatMap_range_succ, List.length_append]
    exact Nat.dvd_add inductionHypothesis (dvd_length_polygonFan f)

theorem dvd_length_fans : 3 ∣ mesh.fans.length := dvd_length_fansBefore _

theorem fansBefore_succ (f : Nat) :
    mesh.fansBefore (f + 1) = mesh.fansBefore f ++ mesh.polygonFan f := flatMap_range_succ _ f

/-- The corners of a polygon's triangles are its own. -/
theorem of_mem_polygonFan {f c : Nat} (member : c ∈ mesh.polygonFan f) :
    c < mesh.start f + (mesh.faceVertexCounts.getD f 0).toNat := by
  rw [polygonFan] at member
  split at member
  · cases member
  · obtain ⟨k, inside, member⟩ := List.mem_flatMap.mp member
    exact of_mem_fanTriangle (List.mem_range.mp inside) member

/-- One triangle behind those so far. -/
theorem addTriangle_eq {soFar : Fanned} {n k : Nat} (inside : k < n - 2)
    (within : soFar.c0 + n ≤ mesh.faceVertexIndices.length) :
    mesh.addTriangle indexed soFar k = some { soFar with
      indices := soFar.indices ++ (mesh.fanTriangle soFar.c0 k).map (mesh.indexOf indexed)
      ntris := soFar.ntris + 1 } := by
  have first : soFar.c0 < mesh.faceVertexIndices.length := by omega
  have second : soFar.c0 + (k + 1) < mesh.faceVertexIndices.length := by omega
  have third : soFar.c0 + (k + 1) + 1 < mesh.faceVertexIndices.length := by omega
  simp only [addTriangle, written_eq first, written_eq second, written_eq third, fanTriangle,
    Option.bind_eq_bind, Option.bind_some, Option.pure_def]
  split <;> rfl

/-- The triangles after some of a fan. -/
def fanned (mesh : MeshPrim φ) (indexed : Bool) (soFar : Fanned) (k : Nat) : Fanned :=
  { soFar with
    indices := soFar.indices ++
      ((List.range k).flatMap (mesh.fanTriangle soFar.c0)).map (mesh.indexOf indexed)
    ntris := soFar.ntris + k }

theorem fanned_zero (soFar : Fanned) : mesh.fanned indexed soFar 0 = soFar := by
  simp [fanned]

/-- The fan of a polygon. -/
theorem fan_eq (soFar : Fanned) {n : Nat}
    (within : soFar.c0 + n ≤ mesh.faceVertexIndices.length) :
    (List.range (n - 2)).foldlM (mesh.addTriangle indexed) soFar =
      some (mesh.fanned indexed soFar (n - 2)) := by
  have loop : (List.range (n - 2)).foldlM (mesh.addTriangle indexed)
      (mesh.fanned indexed soFar 0) = _ :=
    foldlM_range (mesh.fanned indexed soFar) (n - 2) fun k inside => by
      have within : (mesh.fanned indexed soFar k).c0 + n ≤ mesh.faceVertexIndices.length := within
      rw [addTriangle_eq inside within]
      simp only [fanned, flatMap_range_succ, List.map_append, List.append_assoc, Nat.add_assoc]
  rwa [fanned_zero] at loop

/-- The triangles after some polygons, behind what the table had before. -/
def facesFanned (mesh : MeshPrim φ) (indexed : Bool) (indices : List Int) (f : Nat) : Fanned where
  c0 := mesh.start f
  indices := indices ++ (mesh.fansBefore f).map (mesh.indexOf indexed)
  ntris := (mesh.fansBefore f).length / 3

/-- One polygon behind those so far. -/
theorem addFace_eq (indices : List Int) {f : Nat} (inside : f < mesh.faceVertexCounts.length)
    (sum : mesh.faceVertexIndices.length = (mesh.faceVertexCounts.map Int.toNat).sum) :
    mesh.addFace indexed (holes mesh.faceVertexCounts.length mesh.holeIndices)
        (mesh.facesFanned indexed indices f) f =
      some (mesh.facesFanned indexed indices (f + 1)) := by
  have count_eq := List.getElem?_eq_getElem inside
  have within := start_add_le inside
  rw [← sum] at within
  have getD_eq := List.getD_eq_getElem mesh.faceVertexCounts 0 inside
  simp only [addFace, count_eq, holes_getElem? _ inside, Option.bind_eq_bind, Option.bind_some,
    ← getD_eq]
  generalize n_eq : (mesh.faceVertexCounts.getD f 0).toNat = n at within ⊢
  by_cases hole : (f : Int) ∈ mesh.holeIndices
  · have none : mesh.polygonFan f = [] := if_pos hole
    simp only [hole, decide_true, Bool.not_true, Bool.false_and, Bool.false_eq_true, if_false,
      Option.pure_def, facesFanned, start_succ inside, n_eq, fansBefore, flatMap_range_succ, none,
      List.append_nil]
  · have fan : mesh.polygonFan f = (List.range (n - 2)).flatMap (mesh.fanTriangle (mesh.start f)) :=
      n_eq ▸ if_neg hole
    have triangles : (mesh.polygonFan f).length = 3 * (n - 2) := by
      rw [fan]
      exact length_flatMap_range fun k _ => length_fanTriangle _ k
    have next : ({ mesh.fanned indexed (mesh.facesFanned indexed indices f) (n - 2) with
        c0 := mesh.start f + n } : Fanned) = mesh.facesFanned indexed indices (f + 1) := by
      simp only [fanned, facesFanned, start_succ inside, n_eq, fansBefore_succ, List.length_append,
        triangles, ← fan, List.map_append, List.append_assoc,
        Nat.add_mul_div_left _ _ (show 0 < 3 by decide)]
    by_cases polygon : 3 ≤ n
    · rw [if_pos (by simp [hole, polygon]), fan_eq _ within]
      exact congrArg some next
    · rw [show n - 2 = 0 by omega, fanned_zero] at next
      rw [if_neg (by simp [polygon])]
      exact congrArg some next

/-- All polygons. -/
theorem faces_eq (indices : List Int)
    (sum : mesh.faceVertexIndices.length = (mesh.faceVertexCounts.map Int.toNat).sum) :
    (List.range mesh.faceVertexCounts.length).foldlM
        (mesh.addFace indexed (holes mesh.faceVertexCounts.length mesh.holeIndices))
        ⟨0, indices, 0⟩ =
      some (mesh.facesFanned indexed indices mesh.faceVertexCounts.length) := by
  have loop : (List.range mesh.faceVertexCounts.length).foldlM
      (mesh.addFace indexed (holes mesh.faceVertexCounts.length mesh.holeIndices))
      (mesh.facesFanned indexed indices 0) = _ :=
    foldlM_range (mesh.facesFanned indexed indices) _ fun f inside => addFace_eq indices inside sum
  have start : mesh.facesFanned indexed indices 0 = ⟨0, indices, 0⟩ := by
    simp [facesFanned, MeshPrim.start, fansBefore]
  rwa [start] at loop

/-- The corners of the triangles are corners of the mesh. -/
theorem of_mem_fans {c : Nat} (member : c ∈ mesh.fans)
    (sum : mesh.faceVertexIndices.length = (mesh.faceVertexCounts.map Int.toNat).sum) :
    c < mesh.faceVertexIndices.length := by
  obtain ⟨f, inside, member⟩ := List.mem_flatMap.mp member
  exact sum ▸ (of_mem_polygonFan member).trans_le (start_add_le (List.mem_range.mp inside))

end MeshPrim

/-! ## The tables -/

section Tables

variable (mesh : MeshPrim φ) (nrm : Kept (Vec3f φ)) (st : Kept (Vec2f φ)) (indexed : Bool)
  (before : Tables φ)

/-- The record of a mesh. -/
def recordOf : MeshRec where
  ptOff := before.points.length
  npts := mesh.vertices indexed
  nrmOff := before.normals.length
  uvOff := before.uvs.length
  idxOff := before.indices.length
  ntris := mesh.fans.length / 3
  hasNormals := nrm.has
  hasUvs := st.has
  indexed := indexed

/-- The tables with a mesh. -/
def filledWith : Tables φ :=
  { pushed mesh nrm st indexed before (mesh.vertices indexed) with
    indices := before.indices ++ mesh.fans.map (mesh.indexOf indexed)
    meshes := before.meshes ++ [recordOf mesh nrm st indexed before] }

variable {mesh nrm st indexed before}

/-- Every vertex has its point and its values. -/
theorem source_inside (inside : ∀ i ∈ mesh.faceVertexIndices, i.toNat < mesh.points.length)
    {v : Nat} (less : v < mesh.vertices indexed) :
    (mesh.source indexed v).1 < mesh.points.length ∧
      (indexed = false → (mesh.source indexed v).2 < mesh.faceVertexIndices.length) := by
  cases indexed with
  | true => exact ⟨less, nofun⟩
  | false =>
    have less : v < mesh.faceVertexIndices.length := less
    refine ⟨?_, fun _ => less⟩
    rw [MeshPrim.source, if_neg Bool.false_ne_true, List.getD_eq_getElem _ _ less]
    exact inside _ (List.getElem_mem less)

/-- The index of a corner is that of a vertex with the corner's point, and with the corner itself
where values are by the corner. -/
theorem indexOf_spec (inside : ∀ i ∈ mesh.faceVertexIndices, 0 ≤ i ∧ i.toNat < mesh.points.length)
    {c : Nat} {i : Int} (at_c : mesh.faceVertexIndices[c]? = some i) :
    ∃ v c' : Nat, mesh.indexOf indexed c = v ∧ v < mesh.vertices indexed ∧
      mesh.source indexed v = (i.toNat, c') ∧ (indexed = false → c' = c) := by
  obtain ⟨nonneg, point⟩ := inside i (List.mem_of_getElem? at_c)
  have getD_eq : mesh.faceVertexIndices.getD c 0 = i := by
    rw [List.getD_eq_getElem?_getD, at_c, Option.getD_some]
  cases indexed with
  | true =>
    refine ⟨i.toNat, 0, ?_, point, rfl, nofun⟩
    rw [MeshPrim.indexOf, if_pos rfl, getD_eq, Int.toNat_of_nonneg nonneg]
  | false =>
    refine ⟨c, c, rfl, (List.getElem?_eq_some_iff.mp at_c).1, ?_, fun _ => rfl⟩
    rw [MeshPrim.source, if_neg Bool.false_ne_true, getD_eq]

/-- The index of a corner carries it. -/
theorem carries_indexOf
    (nrmKept : KeptBy mesh.points.length mesh.faceVertexIndices.length mesh.normalValues nrm)
    (stKept : KeptBy mesh.points.length mesh.faceVertexIndices.length mesh.stValues st)
    (inside : ∀ i ∈ mesh.faceVertexIndices, 0 ≤ i ∧ i.toNat < mesh.points.length)
    (layout : indexed = !(nrm.fv || st.fv)) {c : Nat} (corner : c < mesh.faceVertexIndices.length) :
    Carries (filledWith mesh nrm st indexed before) (recordOf mesh nrm st indexed before) mesh c
      (mesh.indexOf indexed c) := by
  have at_c := List.getElem?_eq_getElem corner
  have points := fun i member => (inside i member).2
  have point := points _ (List.getElem_mem corner)
  obtain ⟨v, c', index_eq, less, source_eq, own⟩ := @indexOf_spec _ _ indexed inside c _ at_c
  have nrm_own : nrm.fv = true → indexed = false := fun fv => by simp [layout, fv]
  have st_own : st.fv = true → indexed = false := fun fv => by simp [layout, fv]
  rw [index_eq]
  exact {
    nonneg := Int.natCast_nonneg v
    below := Int.ofNat_lt.mpr less
    point := by
      have wide : ∀ u < mesh.vertices indexed,
          ((mesh.points[(mesh.source indexed u).1]?).elim [] flat3).length = 3 := fun u less => by
        rw [List.getElem?_eq_getElem (source_inside points less).1]
        rfl
      refine (congrArg some (view_flatMap_range before.points wide less)).trans ?_
      rw [source_eq, MeshPrim.pointAt, at_c, List.getElem?_eq_getElem point]
      simp only [Option.bind_eq_bind, Option.bind_some, List.getElem?_eq_getElem point]
      rfl
    normal := view_kept flat3 (fun _ => rfl) before.normals
      (fun u less => nrmKept.exists_read (source_inside points less).1 fun fv =>
        (source_inside points less).2 (nrm_own fv))
      less (by
        rw [source_eq]
        exact nrmKept.read_at at_c point fun fv => own (nrm_own fv))
    uv := view_kept flat2 (fun _ => rfl) before.uvs
      (fun u less => stKept.exists_read (source_inside points less).1 fun fv =>
        (source_inside points less).2 (st_own fv))
      less (by
        rw [source_eq]
        exact stKept.read_at at_c point fun fv => own (st_own fv)) }

/-- A mesh that passes the checks goes into the tables. -/
theorem fill_flattens
    (sum : mesh.faceVertexIndices.length = (mesh.faceVertexCounts.map Int.toNat).sum)
    (inside : ∀ i ∈ mesh.faceVertexIndices, 0 ≤ i ∧ i.toNat < mesh.points.length) :
    ∃ after warn r, mesh.fill before mesh.faceVertexIndices.length = some (after, warn) ∧
      Flattened before after mesh r := by
  have points := fun i member => (inside i member).2
  have nrmKept := keptBy_keep "normals" mesh.points.length mesh.faceVertexIndices.length
    mesh.normalValues ""
  rcases nrm_eq : keep "normals" mesh.points.length mesh.faceVertexIndices.length
    mesh.normalValues "" with ⟨nrm, warn⟩
  have stKept := keptBy_keep "st" mesh.points.length mesh.faceVertexIndices.length mesh.stValues
    warn
  rcases st_eq : keep "st" mesh.points.length mesh.faceVertexIndices.length mesh.stValues warn
    with ⟨st, warn'⟩
  rw [nrm_eq] at nrmKept
  rw [st_eq] at stKept
  dsimp only at nrmKept stKept
  generalize layout : (!(nrm.fv || st.fv)) = indexed
  have filled := pushAll_eq nrmKept stKept points before layout.symm
  have fanned := @MeshPrim.faces_eq φ mesh indexed before.indices sum
  simp only [MeshPrim.fill, nrm_eq, st_eq, layout, filled, fanned, Option.bind_eq_bind,
    Option.bind_some, Option.pure_def]
  refine ⟨filledWith mesh nrm st indexed before, warn', recordOf mesh nrm st indexed before, rfl,
    ?_⟩
  have corners_eq : (filledWith mesh nrm st indexed before).corners
      (recordOf mesh nrm st indexed before) = mesh.fans.map (mesh.indexOf indexed) := by
    have triples : 3 * (mesh.fans.length / 3) = (mesh.fans.map (mesh.indexOf indexed)).length := by
      rw [List.length_map, Nat.mul_div_cancel' MeshPrim.dvd_length_fans]
    have between := view_between before.indices (mesh.fans.map (mesh.indexOf indexed)) []
    rw [List.append_nil, ← triples] at between
    exact between
  exact {
    meshes := rfl
    points := List.prefix_append _ _
    normals := List.prefix_append _ _
    uvs := List.prefix_append _ _
    indices := by rw [corners_eq]; rfl
    corners := by
      rw [corners_eq, List.forall₂_map_right_iff, List.forall₂_same]
      exact fun c member => carries_indexOf nrmKept stKept inside layout.symm
        (MeshPrim.of_mem_fans member sum) }

/-- `add_mesh` reads nothing out of range, whatever the prim, and a mesh that it accepts goes behind
those in the tables with the point, the normal and the st of every corner of its triangles. -/
theorem addMesh_keeps_corners (before : Tables φ) (mesh : MeshPrim φ) :
    ∃ answer, addMesh before mesh = some answer ∧
      ∀ after warn, answer = .ok (after, warn) → ∃ r, Flattened before after mesh r := by
  rw [addMesh]
  cases counted : countCorners mesh.faceVertexCounts with
  | none => exact ⟨_, rfl, nofun⟩
  | some corners =>
    by_cases sum : corners = mesh.faceVertexIndices.length
    · subst sum
      dsimp only
      rw [if_neg (not_not_intro rfl)]
      split
      next i found => exact ⟨_, rfl, nofun⟩
      next checked =>
        have inside : ∀ i ∈ mesh.faceVertexIndices, 0 ≤ i ∧ i.toNat < mesh.points.length := by
          intro i member
          have passes := List.find?_eq_none.mp checked i member
          simpa [not_or] using passes
        obtain ⟨after, warn, r, fills, flattened⟩ := @fill_flattens _ mesh before
          (sum_of_countCorners counted) inside
        refine ⟨.ok (after, warn), by rw [fills]; rfl, fun after' warn' same => ?_⟩
        obtain ⟨rfl, rfl⟩ : after = after' ∧ warn = warn' := by simpa using same
        exact ⟨r, flattened⟩
    · dsimp only
      rw [if_pos sum]
      exact ⟨_, rfl, nofun⟩

end Tables

/-- A hole between two polygons of a left-handed mesh, with st by the corner. -/
def holed : MeshPrim Nat where
  points := [(0, 0, 0), (1, 0, 0), (1, 1, 0), (0, 1, 0)]
  faceVertexCounts := [3, 3, 4]
  faceVertexIndices := [0, 1, 2, 0, 2, 3, 3, 2, 1, 0]
  holeIndices := [1, 9, -1]
  normalsPrimvar := none
  normals := some [(0, 0, 1)]
  normalsInterpolation := .other "constant"
  st := some ⟨true, .faceVarying, some ((List.range 10).map fun c => (c, c))⟩
  primvars := []
  leftHanded := true
  inHeap := by decide

/-- One triangle is in the tables. -/
def oneTriangle : Tables Nat :=
  ⟨[7, 7, 7, 8, 7, 7, 7, 8, 7], [], [], [0, 1, 2], [⟨0, 3, 0, 0, 0, 1, false, false, true⟩]⟩

/-- Behind a triangle the two polygons around the hole are wound the other way and keep the st of
each corner; the constant normals are dropped. -/
theorem addMesh_keeps_corners_holed : ∃ after warn r,
    addMesh oneTriangle holed = some (.ok (after, warn)) ∧ Flattened oneTriangle after holed r ∧
      after.indices = [0, 1, 2, 0, 2, 1, 6, 8, 7, 6, 9, 8] ∧ after.normals = [] ∧
      after.uvs.length = 20 := by
  obtain ⟨answer, added, keeps⟩ := addMesh_keeps_corners oneTriangle holed
  have run : (addMesh oneTriangle holed).bind (fun answer => answer.toOption.map fun result =>
      (result.1.indices, result.1.normals, result.1.uvs.length)) =
      some ([0, 1, 2, 0, 2, 1, 6, 8, 7, 6, 9, 8], [], 20) := by decide +kernel
  rw [added, Option.bind_some] at run
  cases answer with
  | error reason => cases run
  | ok result =>
    obtain ⟨after, warn⟩ := result
    obtain ⟨r, flattened⟩ := keeps after warn rfl
    simp only [Except.toOption, Option.map_some, Option.some.injEq, Prod.mk.injEq] at run
    exact ⟨after, warn, r, added, flattened, run⟩

end DressOn.Usd.Flatten
