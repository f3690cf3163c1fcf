import Mathlib.Algebra.Field.Rat
import Mathlib.Algebra.BigOperators.Group.List.Basic
import Mathlib.Data.List.Induction
import Mathlib.Tactic.NormNum
import DressOn.Avbd.Backends

/-!
# Dual penalties

Every attachment, triangle and bending carries a stiffness `k` and a dual penalty
`gamma` derived from it. `setGammaScale` rescales the penalties already uploaded
and keeps the product of its arguments in `gammaScale_`. An upload applies that
product on `AvbdRd` only; an update applies it on both.
-/

namespace DressOn.Avbd.Penalties

open DressOn.Avbd.Backends (load length_load)

/-- The families that carry a dual penalty. -/
inductive Constraint where
  | attachments
  | triangles
  | bendings
deriving DecidableEq

variable {α : Type*}

/-- The calls that write a stiffness or a penalty. -/
inductive Op (α : Type*) where
  | uploadAttachments (nAttach : Nat) (stiffness : Nat → α)
  | uploadTriangles (nTri : Nat) (stiffness : Nat → α)
  | uploadBendings (nBend : Nat) (stiffness : Nat → α)
  | setGammaScale (scale : α)
  | updateTriangleRest (stiffness : Nat → α)
  | updateBendingRest (stiffness : Nat → α)
  | updateAttachmentStiffness (stiffness : Nat → α)

section Cpu

/-- `nAttach_`, `nTri_`, `nBend_`, each family's `Stiff_` and `Gamma_`, and
`gammaScale_` of `AvbdCpu`. -/
structure AvbdCpu (α : Type*) where
  count : Constraint → Nat
  stiff : Constraint → List α
  gamma : Constraint → List α
  gammaScale : α

namespace AvbdCpu

/-- A new solver. -/
def fresh [One α] : AvbdCpu α where
  count _ := 0
  stiff _ := []
  gamma _ := []
  gammaScale := 1

/-- What `uploadAttachments`, `uploadTriangles` and `uploadBendings` share. -/
def upload (cpu : AvbdCpu α) (family : Constraint) (n : Nat) (stiffness : Nat → α) : AvbdCpu α :=
  { cpu with
    count := Function.update cpu.count family n
    stiff := Function.update cpu.stiff family (load n stiffness)
    gamma := Function.update cpu.gamma family (load n stiffness) }

/-- `uploadAttachments`. -/
def uploadAttachments (cpu : AvbdCpu α) (nAttach : Nat) (stiffness : Nat → α) : AvbdCpu α :=
  cpu.upload .attachments nAttach stiffness

/-- `uploadTriangles`. -/
def uploadTriangles (cpu : AvbdCpu α) (nTri : Nat) (stiffness : Nat → α) : AvbdCpu α :=
  cpu.upload .triangles nTri stiffness

/-- `uploadBendings`. -/
def uploadBendings (cpu : AvbdCpu α) (nBend : Nat) (stiffness : Nat → α) : AvbdCpu α :=
  cpu.upload .bendings nBend stiffness

variable [Mul α]

/-- `setGammaScale`. -/
def setGammaScale (cpu : AvbdCpu α) (scale : α) : AvbdCpu α :=
  { cpu with
    gammaScale := cpu.gammaScale * scale
    gamma := fun family => (cpu.gamma family).map (· * scale) }

/-- What the three updates share: gamma follows `k`. -/
def update (cpu : AvbdCpu α) (family : Constraint) (stiffness : Nat → α) : AvbdCpu α :=
  if cpu.count family = 0 then cpu
  else
    { cpu with
      stiff := Function.update cpu.stiff family (load (cpu.count family) stiffness)
      gamma := Function.update cpu.gamma family
        ((load (cpu.count family) stiffness).map (· * cpu.gammaScale)) }

/-- `updateTriangleRest`. -/
def updateTriangleRest (cpu : AvbdCpu α) (stiffness : Nat → α) : AvbdCpu α :=
  cpu.update .triangles stiffness

/-- `updateBendingRest`. -/
def updateBendingRest (cpu : AvbdCpu α) (stiffness : Nat → α) : AvbdCpu α :=
  cpu.update .bendings stiffness

/-- `updateAttachmentStiffness`. -/
def updateAttachmentStiffness (cpu : AvbdCpu α) (stiffness : Nat → α) : AvbdCpu α :=
  cpu.update .attachments stiffness

/-- One call. -/
def step (cpu : AvbdCpu α) : Op α → AvbdCpu α
  | .uploadAttachments nAttach stiffness => cpu.uploadAttachments nAttach stiffness
  | .uploadTriangles nTri stiffness => cpu.uploadTriangles nTri stiffness
  | .uploadBendings nBend stiffness => cpu.uploadBendings nBend stiffness
  | .setGammaScale scale => cpu.setGammaScale scale
  | .updateTriangleRest stiffness => cpu.updateTriangleRest stiffness
  | .updateBendingRest stiffness => cpu.updateBendingRest stiffness
  | .updateAttachmentStiffness stiffness => cpu.updateAttachmentStiffness stiffness

end AvbdCpu

end Cpu

section Rd

/-- The same data in `AvbdRd`: `stiff` and `gamma` are the device buffers,
`hostGamma` the vectors they are written from. A freed buffer has no rows. -/
structure AvbdRd (α : Type*) where
  count : Constraint → Nat
  stiff : Constraint → List α
  hostGamma : Constraint → List α
  gamma : Constraint → List α
  gammaScale : α

/-- `update_f32`: the buffer's first rows are overwritten. -/
def updateF32 (buffer values : List α) : List α :=
  if buffer.isEmpty || values.isEmpty then buffer else values ++ buffer.drop values.length

namespace AvbdRd

/-- A new solver. -/
def fresh [One α] : AvbdRd α where
  count _ := 0
  stiff _ := []
  hostGamma _ := []
  gamma _ := []
  gammaScale := 1

variable [Mul α]

/-- What `uploadAttachments`, `uploadTriangles` and `uploadBendings` share. -/
def upload (rd : AvbdRd α) (family : Constraint) (n : Nat) (stiffness : Nat → α) : AvbdRd α :=
  if n = 0 then
    -- the old buffers are freed and none is made
    { rd with
      count := Function.update rd.count family 0
      stiff := Function.update rd.stiff family []
      hostGamma := Function.update rd.hostGamma family []
      gamma := Function.update rd.gamma family [] }
  else
    { rd with
      count := Function.update rd.count family n
      stiff := Function.update rd.stiff family (load n stiffness)
      hostGamma := Function.update rd.hostGamma family
        ((load n stiffness).map (· * rd.gammaScale))
      gamma := Function.update rd.gamma family ((load n stiffness).map (· * rd.gammaScale)) }

/-- `uploadAttachments`. -/
def uploadAttachments (rd : AvbdRd α) (nAttach : Nat) (stiffness : Nat → α) : AvbdRd α :=
  rd.upload .attachments nAttach stiffness

/-- `uploadTriangles`. -/
def uploadTriangles (rd : AvbdRd α) (nTri : Nat) (stiffness : Nat → α) : AvbdRd α :=
  rd.upload .triangles nTri stiffness

/-- `uploadBendings`. -/
def uploadBendings (rd : AvbdRd α) (nBend : Nat) (stiffness : Nat → α) : AvbdRd α :=
  rd.upload .bendings nBend stiffness

/-- `setGammaScale`. -/
def setGammaScale (rd : AvbdRd α) (scale : α) : AvbdRd α :=
  { rd with
    gammaScale := rd.gammaScale * scale
    hostGamma := fun family => (rd.hostGamma family).map (· * scale)
    gamma := fun family => updateF32 (rd.gamma family) ((rd.hostGamma family).map (· * scale)) }

/-- What the three updates share; a family without constraints has no valid buffer. -/
def update (rd : AvbdRd α) (family : Constraint) (stiffness : Nat → α) : AvbdRd α :=
  if rd.count family = 0 ∨ (rd.stiff family).isEmpty then rd
  else
    { rd with
      stiff := Function.update rd.stiff family
        (updateF32 (rd.stiff family) (load (rd.count family) stiffness))
      hostGamma := Function.update rd.hostGamma family
        ((load (rd.count family) stiffness).map (· * rd.gammaScale))
      gamma := Function.update rd.gamma family
        (updateF32 (rd.gamma family)
          ((load (rd.count family) stiffness).map (· * rd.gammaScale))) }

/-- `updateTriangleRest`. -/
def updateTriangleRest (rd : AvbdRd α) (stiffness : Nat → α) : AvbdRd α :=
  rd.update .triangles stiffness

/-- `updateBendingRest`. -/
def updateBendingRest (rd : AvbdRd α) (stiffness : Nat → α) : AvbdRd α :=
  rd.update .bendings stiffness

/-- `updateAttachmentStiffness`. -/
def updateAttachmentStiffness (rd : AvbdRd α) (stiffness : Nat → α) : AvbdRd α :=
  rd.update .attachments stiffness

/-- One call. -/
def step (rd : AvbdRd α) : Op α → AvbdRd α
  | .uploadAttachments nAttach stiffness => rd.uploadAttachments nAttach stiffness
  | .uploadTriangles nTri stiffness => rd.uploadTriangles nTri stiffness
  | .uploadBendings nBend stiffness => rd.uploadBendings nBend stiffness
  | .setGammaScale scale => rd.setGammaScale scale
  | .updateTriangleRest stiffness => rd.updateTriangleRest stiffness
  | .updateBendingRest stiffness => rd.updateBendingRest stiffness
  | .updateAttachmentStiffness stiffness => rd.updateAttachmentStiffness stiffness

end AvbdRd

end Rd

section Lists

/-- A buffer of the same length is overwritten whole. -/
theorem updateF32_of_length {buffer values : List α} (same : values.length = buffer.length) :
    updateF32 buffer values = values := by
  unfold updateF32
  split
  · rename_i empty
    have none : buffer.length = 0 := by
      simp only [Bool.or_eq_true, List.isEmpty_iff_length_eq_zero] at empty
      omega
    simp [List.length_eq_zero_iff.mp none, List.length_eq_zero_iff.mp (same.trans none)]
  · simp [same]

/-- Scaling leaves a list alone exactly when the scale is one or the list is zero. -/
theorem map_mul_eq_self_iff [Field α] (n : Nat) (stiffness : Nat → α) (scale : α) :
    (load n stiffness).map (· * scale) = load n stiffness ↔
      scale = 1 ∨ ∀ index < n, stiffness index = 0 := by
  constructor
  · intro same
    by_cases one : scale = 1
    · exact Or.inl one
    · right
      intro index inRange
      have entry := congrArg (·[index]?) same
      simp only [load, List.map_map, List.getElem?_map, List.getElem?_range inRange,
        Option.map_some, Function.comp_apply, Option.some.injEq] at entry
      exact (mul_right_eq_self₀.mp entry).resolve_left one
  · rintro (rfl | zero)
    · simp
    · simp only [load, List.map_map]
      apply List.map_congr_left
      intro index member
      simp [zero index (List.mem_range.mp member)]

end Lists

section Agreement

variable [Field α]

/-- What the two keep in common whatever is called: all but the penalties, and
each device buffer of `AvbdRd` holds its host vector. -/
structure Aligned (cpu : AvbdCpu α) (rd : AvbdRd α) : Prop where
  count : ∀ family, cpu.count family = rd.count family
  stiff : ∀ family, cpu.stiff family = rd.stiff family
  gammaScale : cpu.gammaScale = rd.gammaScale
  mirrored : ∀ family, rd.gamma family = rd.hostGamma family
  stiffRows : ∀ family, (rd.stiff family).length = rd.count family
  gammaRows : ∀ family, (rd.gamma family).length = rd.count family

/-- A call that leaves the two alike: an upload comes before any rescaling, or
its stiffnesses are zero. -/
def Unscaled (scale : α) : Op α → Prop
  | .uploadAttachments nAttach stiffness => scale = 1 ∨ ∀ index < nAttach, stiffness index = 0
  | .uploadTriangles nTri stiffness => scale = 1 ∨ ∀ index < nTri, stiffness index = 0
  | .uploadBendings nBend stiffness => scale = 1 ∨ ∀ index < nBend, stiffness index = 0
  | .setGammaScale _ | .updateTriangleRest _ | .updateBendingRest _
  | .updateAttachmentStiffness _ => True

/-- The factor a call contributes to `gammaScale_`. -/
def Op.factor : Op α → α
  | .setGammaScale scale => scale
  | _ => 1

/-- The product of the scales set so far. -/
def scaleOf (ops : List (Op α)) : α := (ops.map Op.factor).prod

variable {cpu : AvbdCpu α} {rd : AvbdRd α}

/-- An upload, field by field. -/
theorem AvbdRd.upload_eq (rd : AvbdRd α) (family : Constraint) (n : Nat) (stiffness : Nat → α) :
    rd.upload family n stiffness =
      { rd with
        count := Function.update rd.count family n
        stiff := Function.update rd.stiff family (load n stiffness)
        hostGamma := Function.update rd.hostGamma family
          ((load n stiffness).map (· * rd.gammaScale))
        gamma := Function.update rd.gamma family
          ((load n stiffness).map (· * rd.gammaScale)) } := by
  unfold AvbdRd.upload
  split
  · rename_i none
    simp [none, load]
  · rfl

/-- An upload keeps both sides aligned. -/
theorem Aligned.upload (aligned : Aligned cpu rd) (family : Constraint) (n : Nat)
    (stiffness : Nat → α) :
    Aligned (cpu.upload family n stiffness) (rd.upload family n stiffness) := by
  rw [AvbdRd.upload_eq]
  constructor
  case gammaScale => exact aligned.gammaScale
  all_goals
    intro other
    simp only [AvbdCpu.upload, Function.update_apply]
    split
    · simp
    · first
        | exact aligned.count other
        | exact aligned.stiff other
        | exact aligned.mirrored other
        | exact aligned.stiffRows other
        | exact aligned.gammaRows other

/-- A new scale keeps both sides aligned. -/
theorem Aligned.setGammaScale (aligned : Aligned cpu rd) (scale : α) :
    Aligned (cpu.setGammaScale scale) (rd.setGammaScale scale) where
  count := aligned.count
  stiff := aligned.stiff
  gammaScale := by simp [AvbdCpu.setGammaScale, AvbdRd.setGammaScale, aligned.gammaScale]
  mirrored family := by
    apply updateF32_of_length
    simp [aligned.mirrored family]
  stiffRows := aligned.stiffRows
  gammaRows family := by
    have rows : ((rd.hostGamma family).map (· * scale)).length = (rd.gamma family).length := by
      simp [aligned.mirrored family]
    simp only [AvbdRd.setGammaScale]
    rw [updateF32_of_length rows, rows, aligned.gammaRows family]

/-- An update of a family with constraints overwrites both buffers whole. -/
theorem Aligned.update_eq (aligned : Aligned cpu rd) (family : Constraint) (stiffness : Nat → α)
    (some : rd.count family ≠ 0) :
    rd.update family stiffness =
      { rd with
        stiff := Function.update rd.stiff family (load (rd.count family) stiffness)
        hostGamma := Function.update rd.hostGamma family
          ((load (rd.count family) stiffness).map (· * rd.gammaScale))
        gamma := Function.update rd.gamma family
          ((load (rd.count family) stiffness).map (· * rd.gammaScale)) } := by
  have valid : ¬(rd.stiff family).isEmpty := by
    intro empty
    have rows := aligned.stiffRows family
    simp only [List.isEmpty_iff] at empty
    simp only [empty, List.length_nil] at rows
    exact some rows.symm
  unfold AvbdRd.update
  rw [if_neg (by simp [some, valid]), updateF32_of_length (by simp [aligned.stiffRows family]),
    updateF32_of_length (by simp [aligned.gammaRows family])]

/-- An update keeps both sides aligned. -/
theorem Aligned.update (aligned : Aligned cpu rd) (family : Constraint) (stiffness : Nat → α) :
    Aligned (cpu.update family stiffness) (rd.update family stiffness) := by
  by_cases none : rd.count family = 0
  · simpa [AvbdCpu.update, AvbdRd.update, aligned.count family, none] using aligned
  · rw [aligned.update_eq family stiffness none, AvbdCpu.update,
      if_neg (by rwa [aligned.count family]), aligned.count family, aligned.gammaScale]
    constructor
    case count => exact aligned.count
    case gammaScale => rfl
    all_goals
      intro other
      simp only [Function.update_apply]
      split
      · rename_i same
        simp [same]
      · first
          | exact aligned.stiff other
          | exact aligned.mirrored other
          | exact aligned.stiffRows other
          | exact aligned.gammaRows other

/-- A call keeps both sides aligned. -/
theorem Aligned.step (aligned : Aligned cpu rd) (op : Op α) :
    Aligned (cpu.step op) (rd.step op) := by
  cases op with
  | uploadAttachments nAttach stiffness => exact aligned.upload _ _ _
  | uploadTriangles nTri stiffness => exact aligned.upload _ _ _
  | uploadBendings nBend stiffness => exact aligned.upload _ _ _
  | setGammaScale scale => exact aligned.setGammaScale scale
  | updateTriangleRest stiffness => exact aligned.update _ _
  | updateBendingRest stiffness => exact aligned.update _ _
  | updateAttachmentStiffness stiffness => exact aligned.update _ _

/-- After an upload the penalties are alike exactly when the running scale leaves
the stiffnesses alone. -/
theorem Aligned.gamma_upload (aligned : Aligned cpu rd) (same : cpu.gamma = rd.gamma)
    (family : Constraint) (n : Nat) (stiffness : Nat → α) :
    (cpu.upload family n stiffness).gamma = (rd.upload family n stiffness).gamma ↔
      cpu.gammaScale = 1 ∨ ∀ index < n, stiffness index = 0 := by
  rw [AvbdRd.upload_eq, ← map_mul_eq_self_iff, aligned.gammaScale]
  simp only [AvbdCpu.upload, same]
  constructor
  · intro equal
    simpa using (congrFun equal family).symm
  · intro equal
    rw [equal]

/-- An update leaves the penalties alike. -/
theorem Aligned.gamma_update (aligned : Aligned cpu rd) (same : cpu.gamma = rd.gamma)
    (family : Constraint) (stiffness : Nat → α) :
    (cpu.update family stiffness).gamma = (rd.update family stiffness).gamma := by
  by_cases none : rd.count family = 0
  · simpa [AvbdCpu.update, AvbdRd.update, aligned.count family, none] using same
  · rw [aligned.update_eq family stiffness none, AvbdCpu.update,
      if_neg (by rwa [aligned.count family]), aligned.count family, aligned.gammaScale, same]

/-- A rescaling leaves the penalties alike. -/
theorem Aligned.gamma_setGammaScale (aligned : Aligned cpu rd) (same : cpu.gamma = rd.gamma)
    (scale : α) : (cpu.setGammaScale scale).gamma = (rd.setGammaScale scale).gamma := by
  ext1 family
  rw [(aligned.setGammaScale scale).mirrored family]
  simp [AvbdCpu.setGammaScale, AvbdRd.setGammaScale, same, aligned.mirrored family]

/-- One call keeps the penalties alike exactly when it is unscaled. -/
theorem Aligned.gamma_step (aligned : Aligned cpu rd) (same : cpu.gamma = rd.gamma) (op : Op α) :
    (cpu.step op).gamma = (rd.step op).gamma ↔ Unscaled cpu.gammaScale op := by
  cases op with
  | uploadAttachments nAttach stiffness => exact aligned.gamma_upload same _ _ _
  | uploadTriangles nTri stiffness => exact aligned.gamma_upload same _ _ _
  | uploadBendings nBend stiffness => exact aligned.gamma_upload same _ _ _
  | setGammaScale scale => exact iff_of_true (aligned.gamma_setGammaScale same scale) trivial
  | updateTriangleRest stiffness => exact iff_of_true (aligned.gamma_update same _ _) trivial
  | updateBendingRest stiffness => exact iff_of_true (aligned.gamma_update same _ _) trivial
  | updateAttachmentStiffness stiffness =>
      exact iff_of_true (aligned.gamma_update same _ _) trivial

end Agreement

section Runs

variable [Field α]

/-- A list of calls on a new `AvbdCpu`. -/
def runCpu (ops : List (Op α)) : AvbdCpu α := ops.foldl AvbdCpu.step AvbdCpu.fresh

/-- The same calls on a new `AvbdRd`. -/
def runRd (ops : List (Op α)) : AvbdRd α := ops.foldl AvbdRd.step AvbdRd.fresh

/-- The last call comes last. -/
theorem runCpu_snoc (ops : List (Op α)) (op : Op α) :
    runCpu (ops ++ [op]) = (runCpu ops).step op := by
  simp [runCpu]

/-- The last call comes last. -/
theorem runRd_snoc (ops : List (Op α)) (op : Op α) :
    runRd (ops ++ [op]) = (runRd ops).step op := by
  simp [runRd]

/-- After the same calls both sides are aligned. -/
theorem aligned_run (ops : List (Op α)) : Aligned (runCpu ops) (runRd ops) := by
  induction ops using List.reverseRecOn with
  | nil => constructor <;> simp [runCpu, runRd, AvbdCpu.fresh, AvbdRd.fresh]
  | append_singleton ops op ih =>
      rw [runCpu_snoc, runRd_snoc]
      exact ih.step op

/-- A call multiplies the scale by its factor. -/
theorem AvbdCpu.gammaScale_step (cpu : AvbdCpu α) (op : Op α) :
    (cpu.step op).gammaScale = cpu.gammaScale * op.factor := by
  cases op <;>
    simp [AvbdCpu.step, Op.factor, AvbdCpu.uploadAttachments, AvbdCpu.uploadTriangles,
      AvbdCpu.uploadBendings, AvbdCpu.upload, AvbdCpu.setGammaScale, AvbdCpu.updateTriangleRest,
      AvbdCpu.updateBendingRest, AvbdCpu.updateAttachmentStiffness, AvbdCpu.update, apply_ite]

/-- `gammaScale_` is the product of the `setGammaScale` calls. -/
theorem gammaScale_run (ops : List (Op α)) : (runCpu ops).gammaScale = scaleOf ops := by
  induction ops using List.reverseRecOn with
  | nil => rfl
  | append_singleton ops op ih =>
      rw [runCpu_snoc, AvbdCpu.gammaScale_step, ih]
      simp [scaleOf]

/-- After each call the two back ends hold the same penalties exactly when every
upload comes at a running scale of one, or uploads zero stiffnesses. -/
theorem gammas_agree_iff (ops : List (Op α)) :
    (∀ calls, calls <+: ops → (runCpu calls).gamma = (runRd calls).gamma) ↔
      ∀ calls op, calls ++ [op] <+: ops → Unscaled (scaleOf calls) op := by
  constructor
  · intro agree calls op within
    have before := agree calls ((List.prefix_append calls [op]).trans within)
    have after := agree (calls ++ [op]) within
    rw [runCpu_snoc, runRd_snoc, (aligned_run calls).gamma_step before, gammaScale_run] at after
    exact after
  · intro unscaled calls
    -- the induction is on the calls made so far
    induction calls using List.reverseRecOn with
    | nil => exact fun _ => rfl
    | append_singleton calls op ih =>
        intro within
        have before := ih ((List.prefix_append calls [op]).trans within)
        rw [runCpu_snoc, runRd_snoc, (aligned_run calls).gamma_step before, gammaScale_run]
        exact unscaled calls op within

/-- `setGammaScale(2)`, then one attachment of stiffness 1: 1 on one side, 2 on the other. -/
theorem gammas_disagree :
    ¬∀ ops calls : List (Op ℚ), calls <+: ops → (runCpu calls).gamma = (runRd calls).gamma := by
  intro agree
  have equal := congrFun (agree [.setGammaScale 2, .uploadAttachments 1 fun _ => 1] _
    List.prefix_rfl) .attachments
  have doubled : [(1 : ℚ)] = [1 * (1 * 2)] := equal
  norm_num at doubled

end Runs

end DressOn.Avbd.Penalties
