import Mathlib.Algebra.Order.Field.Basic
import Mathlib.Data.Matrix.Mul
import DressOn.Avbd.Step
import DressOn.Avbd.Backends

/-!
# Scene and configuration of a drape session

What `drape_scene.h` and `drape_config.h` keep. Arithmetic is exact, so the
roundings `float(..)` of the source are the identity. The geometry of the
primitives, the similarity fit and the rest data of a triangle mesh are
parameters.
-/

namespace DressOn.Drape

open DressOn.Avbd (Vec3)
open DressOn.Avbd.Backends (load)

section Data

/-- The settings a load uploads. -/
structure Upload (α : Type*) where
  h : α
  density : α
  kTri : α
  kBend : α
  kAttach : α
  rawStiffness : Bool
  membrane : Bool
  bending : Bool
  colors : Bool
  selfK : Nat
  /-- `alGamma`, when `alGammaSet`. -/
  alGamma : Option α

/-- The settings `DrapeSession::setLive` copies. `set` refuses fewer than one
iteration and fewer than one self-collision pass. -/
structure Live (α : Type*) where
  iters : Nat
  damp : α
  al : Bool
  contact : Bool
  frictionPred : Bool
  selfCollision : Bool
  selfPasses : Nat
  bwdTruncateK : Nat
  gradientClipping : Bool
  gradientClippingThreshold : α
  nativeMuDoubleCarry : Bool
  gravity : Vec3 α
  wind : Vec3 α
  mu : α
  one_le_iters : 1 ≤ iters
  one_le_selfPasses : 1 ≤ selfPasses

/-- `DrapeConfig`. -/
structure Config (α : Type*) extends Upload α, Live α

/-- A primitive: its shape and its friction coefficient. -/
structure Primitive (σ α : Type*) where
  shape : σ
  mu : α

/-- What `isInContact` gives back. -/
structure Touching (α : Type*) where
  normal : Vec3 α
  dist : α
  vOut : Vec3 α

/-- What `scene_finish` computes from the rest shape. -/
structure RestData (α : Type*) where
  triInvUV : Nat → Fin 4 → α
  triArea : Nat → α
  vertArea : Nat → α
  bendW : Nat → Fin 4 → α
  bendN : Nat → α
  bendAreaSum : Nat → α
  radii : Nat → α

/-- What `applyMaterial` computes. -/
structure Material (α : Type*) where
  massD : Nat → α
  mass : Nat → α
  triK : Nat → α
  bendK : Nat → α
  attachK : Nat → α

/-- The geometry behind a scene. -/
structure Geometry (σ α : Type*) where
  sqrt : α → α
  isInContact : σ → Vec3 α → Vec3 α → Option (Touching α)
  /-- `projectionJacobian` at a point, transposed and applied. -/
  projectionJacobianT : σ → Vec3 α → Vec3 α → Vec3 α
  isMesh : σ → Bool
  /-- `mesh_fit_target`: the target, when the collider answers. -/
  meshFitTarget : σ → Vec3 α → α → Option (Vec3 α)
  /-- `similarity_fit` of `n` points, about a pair of pivots: the transform. -/
  similarityFit : Nat → (Nat → Vec3 α) → (Nat → Vec3 α) → Option (Vec3 α × Vec3 α) →
    Option (Vec3 α → Vec3 α)
  /-- `scene_finish` on the rest positions of a triangle list. -/
  sceneFinish : Nat → List (Fin 3 → Nat) → (Nat → Vec3 α) → RestData α
  /-- The stencils `scene_finish` finds; they depend on the triangles alone. -/
  bendIdx : List (Fin 3 → Nat) → List (Fin 4 → Nat)

/-- `DrapeScene`. The attachments are the pins, then the fit set, then the anchor loop. -/
structure Scene (σ α : Type*) where
  nV : Nat
  tri : List (Fin 3 → Nat)
  bendIdx : List (Fin 4 → Nat)
  rest : Nat → Vec3 α
  x0 : Nat → Vec3 α
  v0 : Nat → Vec3 α
  restData : RestData α
  pins : List Nat
  fitVerts : List Nat
  fitAnchor : List Nat
  attachFixed : Nat → Vec3 α
  fitK : α
  fitGap : α
  anchorK : α
  fitRefresh : Nat
  fitRestEvery : Nat
  fitSettle : Nat
  fitSimilarity : Bool
  prims : List (Primitive σ α)
  material : Material α
  /-- `setup` refuses a scene without vertices. -/
  nonempty : 0 < nV

end Data

section Scene

variable {σ α : Type*}

/-- `setLive`: the live settings are replaced. -/
def Config.setLive (cfg : Config α) (live : Live α) : Config α := { cfg with toLive := live }

namespace Scene

variable (scene : Scene σ α)

/-- `attachVert`. -/
def attachVert : List Nat := scene.pins ++ scene.fitVerts ++ scene.fitAnchor

/-- `scene_finish` found the stencils, as for every scene the program makes. -/
def Finished (geometry : Geometry σ α) : Prop := scene.bendIdx = geometry.bendIdx scene.tri

/-- `nAttach()`. -/
def nAttach : Nat := scene.attachVert.length

/-- `nPin()`. -/
def nPin : Nat := scene.pins.length

/-- `nFit`. -/
def nFit : Nat := scene.fitVerts.length

/-- `nTri()`. -/
def nTri : Nat := scene.tri.length

/-- `nBend()`. -/
def nBend : Nat := scene.bendIdx.length

variable [Field α]

/-- `DrapeScene::applyMaterial`. -/
def applyMaterial (geometry : Geometry σ α) (cfg : Upload α) : Scene σ α :=
  let massD i := scene.restData.vertArea i * cfg.density
  let triRoot t := geometry.sqrt (scene.restData.triArea t * cfg.kTri)
  let bendRoot b := geometry.sqrt (cfg.kBend * 3 / scene.restData.bendAreaSum b)
  { scene with
    material :=
      { massD := massD
        mass := massD
        triK := fun t => if cfg.rawStiffness then cfg.kTri else triRoot t * triRoot t
        bendK := fun b => if cfg.rawStiffness then cfg.kBend else bendRoot b * bendRoot b
        attachK := fun a =>
          if a < scene.nPin then cfg.kAttach
          else if a < scene.nPin + scene.nFit then
            scene.fitK * scene.restData.vertArea scene.attachVert[a]!
          else scene.anchorK } }

end Scene

/-- The length of a vector. -/
def norm [Field α] (geometry : Geometry σ α) (u : Vec3 α) : α := geometry.sqrt (u ⬝ᵥ u)

end Scene

end DressOn.Drape
