import DressOn.Drape.BodyMesh
import Mathlib.Algebra.BigOperators.Fin
import Mathlib.Algebra.Order.BigOperators.Group.Finset
import Mathlib.Analysis.SpecialFunctions.Trigonometric.Inverse
import Mathlib.LinearAlgebra.Matrix.DotProduct
import Mathlib.Tactic.Module

/-!
# The closest point of the body

`closestInTri` and `BodyMesh::closest`: the search of the boxes with a stack of 64 entries. Over
exact arithmetic it finds a nearest point of all triangles, and its stack never comes near its end.
-/

namespace DressOn.Drape.Body

open DressOn.Avbd (Vec3)
open BranchAndBound (Tree Strategy Rule)
open TriangleRegions (Triangle Products products planePoint dist2)

/-- `Region`. -/
inductive Region where
  | face
  | edge
  | vertex
deriving DecidableEq, Repr

/-- `Hit`. -/
structure Hit (α : Type*) where
  point : Vec3 α
  pseudo : Vec3 α
  dist2 : α
  tri : Nat
  region : Region
  sub : Nat
  edgeDir : Vec3 α

section Query

variable {α : Type*} [Field α] [LinearOrder α] (std : Std α) (mesh : BodyMesh α) (p : Vec3 α)

/-- `Hit()`. -/
def Hit.empty : Hit α := ⟨0, 0, 0, 0, .face, 0, 0⟩

/-- `box_dist2`. -/
def boxDist2 (lo hi p : Vec3 α) : α :=
  let e k := if p k < lo k then lo k - p k else if hi k < p k then p k - hi k else 0
  e 0 * e 0 + e 1 * e 1 + e 2 * e 2

/-- The point, the region and the edge that `closestInTri` finds. -/
def regionHit (f : Nat) : Hit α :=
  let a := corner mesh.v mesh.t f 0
  let b := corner mesh.v mesh.t f 1
  let c := corner mesh.v mesh.t f 2
  let ab := b - a
  let ac := c - a
  let ap := p - a
  let o : Hit α := { Hit.empty with tri := f }
  let d1 := ab ⬝ᵥ ap
  let d2 := ac ⬝ᵥ ap
  let bp := p - b
  let d3 := ab ⬝ᵥ bp
  let d4 := ac ⬝ᵥ bp
  let cp := p - c
  let d5 := ab ⬝ᵥ cp
  let d6 := ac ⬝ᵥ cp
  let vc := d1 * d4 - d3 * d2
  let vb := d5 * d2 - d1 * d6
  let va := d3 * d6 - d5 * d4
  if d1 ≤ 0 ∧ d2 ≤ 0 then { o with point := a, region := .vertex, sub := 0 }
  else if 0 ≤ d3 ∧ d4 ≤ d3 then { o with point := b, region := .vertex, sub := 1 }
  else if vc ≤ 0 ∧ 0 ≤ d1 ∧ d3 ≤ 0 then
    { o with
      point := a + (d1 / (d1 - d3)) • ab, region := .edge, sub := 0
      edgeDir := normalized std ab }
  else if 0 ≤ d6 ∧ d5 ≤ d6 then { o with point := c, region := .vertex, sub := 2 }
  else if vb ≤ 0 ∧ 0 ≤ d2 ∧ d6 ≤ 0 then
    { o with
      point := a + (d2 / (d2 - d6)) • ac, region := .edge, sub := 2
      edgeDir := normalized std ac }
  else if va ≤ 0 ∧ 0 ≤ d4 - d3 ∧ 0 ≤ d5 - d6 then
    { o with
      point := b + ((d4 - d3) / (d4 - d3 + (d5 - d6))) • (c - b), region := .edge, sub := 1
      edgeDir := normalized std (c - b) }
  else
    let den := 1 / (va + vb + vc)
    { o with point := a + (vb * den) • ab + (vc * den) • ac, region := .face }

/-- `closestInTri`. -/
def closestInTri (f : Nat) (h : Hit α) : Hit α :=
  let o := regionHit std mesh p f
  let o := { o with dist2 := dist2 p o.point }
  if ¬ o.dist2 < h.dist2 then h
  else
    { o with
      pseudo :=
        match o.region with
        | .face => mesh.faceN.getD f 0
        | .edge => mesh.edgeN.getD (3 * f + o.sub) 0
        | .vertex => mesh.vertN.getD (mesh.t.getD (3 * f + o.sub) 0) 0 }

/-- `h` and `found`. -/
structure Best (α : Type*) where
  h : Hit α
  found : Bool

/-- One turn of the loop over a leaf. -/
def Best.visit (best : Best α) (f : Nat) : Best α :=
  let h := closestInTri std mesh p f best.h
  ⟨h, best.found || decide (h.dist2 < best.h.dist2)⟩

/-- What one turn of the search comes to. -/
inductive Turn (α : Type*) where
  | goes (stack : List Nat) (best : Best α)
  | ends (best : Best α)
  | breaks (best : Best α)

/-- `nodes_[id]`. -/
def BodyMesh.node (id : Nat) : Node α := mesh.nodes.getD id ⟨0, 0, 0, 0, 0, 0⟩

/-- One turn of the search; the stack's last entry is the head of the list. -/
def turn : List Nat → Best α → Turn α
  | [], best => .ends best
  | id :: stack, best =>
      let n := mesh.node id
      if ¬ boxDist2 n.lo n.hi p < best.h.dist2 then .goes stack best
      else if n.left = 0 then
        .goes stack ((slice mesh.order n.start n.count).foldl (Best.visit std mesh p) best)
      else
        let dl := boxDist2 (mesh.node n.left).lo (mesh.node n.left).hi p
        let dr := boxDist2 (mesh.node n.right).lo (mesh.node n.right).hi p
        if stack.length + 2 > 64 then .breaks best
        else if dl < dr then .goes (n.left :: n.right :: stack) best
        else .goes (n.right :: n.left :: stack) best

/-- The search, and whether it broke off; `none` when the fuel runs out. -/
def run : Nat → List Nat → Best α → Option (Best α × Bool)
  | 0, _, _ => none
  | fuel + 1, stack, best =>
      match turn std mesh p stack best with
      | .goes stack best => run fuel stack best
      | .ends best => some (best, false)
      | .breaks best => some (best, true)

/-- What the search starts with. -/
def Best.start (maxDist2 : α) : Best α := ⟨{ Hit.empty with dist2 := maxDist2 }, false⟩

/-- `BodyMesh::closest`: the hit and the result. -/
def closest (maxDist2 : α) (fuel : Nat) : Option (Hit α × Bool) :=
  if mesh.nodes.isEmpty then some ((Best.start maxDist2).h, false)
  else (run std mesh p fuel [0] (Best.start maxDist2)).map fun out => (out.1.h, out.1.found)

/-- The turns that the search takes from one stack to another. -/
def Takes (before after : List Nat × Best α) : Prop :=
  turn std mesh p before.1 before.2 = .goes after.1 after.2

/-- The triangle's points. -/
def BodyMesh.triangle (mesh : BodyMesh α) (f : Nat) : Set (Vec3 α) :=
  Triangle (corner mesh.v mesh.t f 0) (corner mesh.v mesh.t f 1) (corner mesh.v mesh.t f 2)

/-- The triangle has an area. -/
def BodyMesh.Solid (mesh : BodyMesh α) (f : Nat) : Prop :=
  cross (corner mesh.v mesh.t f 1 - corner mesh.v mesh.t f 0)
    (corner mesh.v mesh.t f 2 - corner mesh.v mesh.t f 0) ≠ 0

end Query

section Regions

variable {α : Type*} [Field α] [LinearOrder α] (std : Std α) (mesh : BodyMesh α) (p : Vec3 α)

/-- The point of the first region that fits. -/
theorem regionHit_point (f : Nat) :
    (regionHit std mesh p f).point = planePoint (corner mesh.v mesh.t f 0)
      (corner mesh.v mesh.t f 1) (corner mesh.v mesh.t f 2) (products (corner mesh.v mesh.t f 0) (corner mesh.v mesh.t f 1)
        (corner mesh.v mesh.t f 2) p).spot := by
  unfold regionHit Products.spot
  dsimp only
  generalize corner mesh.v mesh.t f 0 = a
  generalize corner mesh.v mesh.t f 1 = b
  generalize corner mesh.v mesh.t f 2 = c
  have fromB : p - b = (p - a) - (b - a) := by abel
  have fromC : p - c = (p - a) - (c - a) := by abel
  have d1 : (b - a) ⬝ᵥ (p - a) = (products a b c p).abap := rfl
  have d2 : (c - a) ⬝ᵥ (p - a) = (products a b c p).acap := rfl
  have d3 : (b - a) ⬝ᵥ (p - b) = (products a b c p).abbp := by
    rw [fromB, dotProduct_sub]
    rfl
  have d4 : (c - a) ⬝ᵥ (p - b) = (products a b c p).acbp := by
    rw [fromB, dotProduct_sub, dotProduct_comm (c - a) (b - a)]
    rfl
  have d5 : (b - a) ⬝ᵥ (p - c) = (products a b c p).abcp := by
    rw [fromC, dotProduct_sub]
    rfl
  have d6 : (c - a) ⬝ᵥ (p - c) = (products a b c p).accp := by
    rw [fromC, dotProduct_sub]
    rfl
  have vc : (products a b c p).abap * (products a b c p).acbp -
      (products a b c p).abbp * (products a b c p).acap = (products a b c p).weightC := rfl
  have vb : (products a b c p).abcp * (products a b c p).acap -
      (products a b c p).abap * (products a b c p).accp = (products a b c p).weightB := rfl
  have va : (products a b c p).abbp * (products a b c p).accp -
      (products a b c p).abcp * (products a b c p).acbp = (products a b c p).weightA := rfl
  simp only [d1, d2, d3, d4, d5, d6, vc, vb, va]
  rw [apply_ite Hit.point, apply_ite (planePoint a b c)]
  refine ite_congr rfl (fun _ => ?_) fun _ => ?_
  · simp [planePoint]
  rw [apply_ite Hit.point, apply_ite (planePoint a b c)]
  refine ite_congr rfl (fun _ => ?_) fun _ => ?_
  · simp [planePoint]
  rw [apply_ite Hit.point, apply_ite (planePoint a b c)]
  refine ite_congr rfl (fun _ => ?_) fun _ => ?_
  · simp [planePoint]
  rw [apply_ite Hit.point, apply_ite (planePoint a b c)]
  refine ite_congr rfl (fun _ => ?_) fun _ => ?_
  · simp [planePoint]
  rw [apply_ite Hit.point, apply_ite (planePoint a b c)]
  refine ite_congr rfl (fun _ => ?_) fun _ => ?_
  · simp [planePoint]
  rw [apply_ite Hit.point, apply_ite (planePoint a b c)]
  refine ite_congr rfl (fun _ => ?_) fun _ => rfl
  simp only [planePoint]
  module

/-- The hit names its triangle. -/
theorem regionHit_tri (f : Nat) : (regionHit std mesh p f).tri = f := by
  unfold regionHit
  dsimp only
  split_ifs <;> rfl

variable {std mesh p}

/-- What a triangle does to the best hit: nothing, or it is nearer and becomes the best. -/
theorem closestInTri_cases (f : Nat) (h : Hit α) :
    (h.dist2 ≤ dist2 p (regionHit std mesh p f).point ∧ closestInTri std mesh p f h = h) ∨
      (dist2 p (regionHit std mesh p f).point < h.dist2 ∧
        (closestInTri std mesh p f h).point = (regionHit std mesh p f).point ∧
        (closestInTri std mesh p f h).tri = f ∧
        (closestInTri std mesh p f h).dist2 = dist2 p (regionHit std mesh p f).point) := by
  unfold closestInTri
  dsimp only
  by_cases nearer : dist2 p (regionHit std mesh p f).point < h.dist2
  · rw [if_neg (not_not.2 nearer)]
    exact .inr ⟨nearer, rfl, regionHit_tri std mesh p f, rfl⟩
  · rw [if_pos nearer]
    exact .inl ⟨not_lt.1 nearer, rfl⟩

/-- The best distance only falls. -/
theorem closestInTri_le (f : Nat) (h : Hit α) : (closestInTri std mesh p f h).dist2 ≤ h.dist2 := by
  obtain ⟨_, same⟩ | ⟨nearer, _, _, dist⟩ := @closestInTri_cases _ _ _ std mesh p f h
  · rw [same]
  · rw [dist]
    exact nearer.le

/-- The best distance is at most that of the triangle. -/
theorem closestInTri_le_region (f : Nat) (h : Hit α) :
    (closestInTri std mesh p f h).dist2 ≤ dist2 p (regionHit std mesh p f).point := by
  obtain ⟨farther, same⟩ | ⟨_, _, _, dist⟩ := @closestInTri_cases _ _ _ std mesh p f h
  · rw [same]
    exact farther
  · exact dist.le

variable [IsStrictOrderedRing α]

/-- Edges with a cross product span a plane. -/
theorem solid_of_cross {a b c : Vec3 α} (p : Vec3 α) (area : cross (b - a) (c - a) ≠ 0) :
    (products a b c p).Solid := by
  have lagrange : ((b - a) ⬝ᵥ (b - a)) * ((c - a) ⬝ᵥ (c - a)) -
      ((b - a) ⬝ᵥ (c - a)) * ((b - a) ⬝ᵥ (c - a)) =
      cross (b - a) (c - a) ⬝ᵥ cross (b - a) (c - a) := by
    simp [dotProduct, Fin.sum_univ_three, cross]
    ring
  have nonneg : ∀ w : Vec3 α, 0 ≤ w ⬝ᵥ w := fun w =>
    Finset.sum_nonneg fun k _ => mul_self_nonneg (w k)
  have areaPos : 0 < ((b - a) ⬝ᵥ (b - a)) * ((c - a) ⬝ᵥ (c - a)) -
      ((b - a) ⬝ᵥ (c - a)) * ((b - a) ⬝ᵥ (c - a)) := by
    rw [lagrange]
    exact lt_of_le_of_ne (nonneg _) fun zero => area (dotProduct_self_eq_zero.1 zero.symm)
  have both : 0 < ((b - a) ⬝ᵥ (b - a)) * ((c - a) ⬝ᵥ (c - a)) := by
    linarith [mul_self_nonneg ((b - a) ⬝ᵥ (c - a))]
  exact ⟨pos_of_mul_pos_left both (nonneg _), pos_of_mul_pos_right both (nonneg _), areaPos⟩

/-- The region's point is a nearest point of the triangle. -/
theorem regionHit_isLeast {f : Nat} (solid : mesh.Solid f) :
    (regionHit std mesh p f).point ∈ mesh.triangle f ∧
      ∀ q ∈ mesh.triangle f, dist2 p (regionHit std mesh p f).point ≤ dist2 p q := by
  rw [regionHit_point]
  exact TriangleRegions.spot_isLeast (solid_of_cross p solid)

end Regions

section Boxes

variable {α : Type*} [Field α] [LinearOrder α] {v : List (Vec3 α)} {t : List Nat}

/-- A box holds the corners of triangles. -/
def Covers (v : List (Vec3 α)) (t : List Nat) (b : Bounds α) (fs : List Nat) : Prop :=
  ∀ f ∈ fs, ∀ r < 3, ∀ k, b.lo k ≤ corner v t f r k ∧ corner v t f r k ≤ b.hi k

/-- One box lies in another one. -/
def Inside (b b' : Bounds α) : Prop := ∀ k, b'.lo k ≤ b.lo k ∧ b.hi k ≤ b'.hi k

omit [Field α] in
theorem Inside.trans {b b' b'' : Bounds α} (first : Inside b b') (second : Inside b' b'') :
    Inside b b'' :=
  fun k => ⟨(second k).1.trans (first k).1, (first k).2.trans (second k).2⟩

omit [Field α] in
/-- A corner widens a box. -/
theorem inside_addCorner (b : Bounds α) (p : Vec3 α) : Inside b (b.addCorner p) :=
  fun _ => ⟨min_le_left _ _, le_max_left _ _⟩

/-- A triangle widens a box. -/
theorem inside_add (b : Bounds α) (f : Nat) : Inside b (b.add v t f) := by
  have corners : Inside b (((b.addCorner (corner v t f 0)).addCorner (corner v t f 1)).addCorner
      (corner v t f 2)) :=
    ((inside_addCorner _ _).trans (inside_addCorner _ _)).trans (inside_addCorner _ _)
  exact corners

/-- A triangle added to a box is in it. -/
theorem corner_add (b : Bounds α) (f r : Nat) (isCorner : r < 3) (k : Fin 3) :
    (b.add v t f).lo k ≤ corner v t f r k ∧ corner v t f r k ≤ (b.add v t f).hi k := by
  have loEq : (b.add v t f).lo k = min (min (min (b.lo k) (corner v t f 0 k)) (corner v t f 1 k))
    (corner v t f 2 k) := rfl
  have hiEq : (b.add v t f).hi k = max (max (max (b.hi k) (corner v t f 0 k)) (corner v t f 1 k))
    (corner v t f 2 k) := rfl
  rw [loEq, hiEq]
  match r, isCorner with
  | 0, _ => simp
  | 1, _ => simp
  | 2, _ => simp

/-- The bounds hold every triangle. -/
theorem covers_boundsOf (fs : List Nat) : Covers v t (boundsOf v t fs) fs := by
  have widens : ∀ (fs : List Nat) (b : Bounds α), Inside b (fs.foldl (Bounds.add v t) b) := by
    intro fs
    induction fs with
    | nil => exact fun b k => ⟨le_rfl, le_rfl⟩
    | cons f fs inductionHypothesis =>
      exact fun b => (inside_add b f).trans (inductionHypothesis _)
  suffices run : ∀ b : Bounds α, Covers v t (fs.foldl (Bounds.add v t) b) fs from run _
  induction fs with
  | nil => simp [Covers]
  | cons f fs inductionHypothesis =>
    intro b other member r isCorner k
    obtain rfl | later := List.mem_cons.1 member
    · have here := @corner_add _ _ _ v t b other r isCorner k
      have wider := widens fs (b.add v t other) k
      exact ⟨wider.1.trans here.1, here.2.trans wider.2⟩
    · exact inductionHypothesis _ other later r isCorner k

/-- Every box of the grown tree holds the triangles under it. -/
theorem sound_grow (std : Std α) (fs : List Nat) : (grow std v t fs).Sound (Covers v t) := by
  fun_induction grow std v t fs with
  | case1 fs b small => exact covers_boundsOf fs
  | case2 fs b large sorted leftHypothesis rightHypothesis =>
    refine ⟨fun load member f inLoad => ?_, leftHypothesis, rightHypothesis⟩
    have halves := (under_grow std v t (sorted.take (fs.length / 2))).append
      (under_grow std v t (sorted.drop (fs.length / 2)))
    rw [List.take_append_drop] at halves
    have inUnder : f ∈ under (grow std v t (sorted.take (fs.length / 2))) ++
        under (grow std v t (sorted.drop (fs.length / 2))) := by
      rw [under, under, ← List.flatten_append]
      exact List.mem_flatten.2 ⟨load, member, inLoad⟩
    exact covers_boundsOf fs f ((std.perm _ _ _).mem_iff.1 (halves.mem_iff.1 inUnder))

variable [IsStrictOrderedRing α]

/-- A box is at most as far as the points in it. -/
theorem boxDist2_le {lo hi : Vec3 α} (p q : Vec3 α) (inside : ∀ k, lo k ≤ q k ∧ q k ≤ hi k) :
    boxDist2 lo hi p ≤ dist2 p q := by
  have each : ∀ k, (if p k < lo k then lo k - p k else if hi k < p k then p k - hi k else 0) *
      (if p k < lo k then lo k - p k else if hi k < p k then p k - hi k else 0) ≤
      (p k - q k) * (p k - q k) := by
    intro k
    obtain ⟨below, above⟩ := inside k
    split_ifs with short far
    · rw [← neg_mul_neg (p k - q k)]
      exact mul_self_le_mul_self (by linarith) (by linarith)
    · exact mul_self_le_mul_self (by linarith) (by linarith)
    · rw [mul_zero]
      exact mul_self_nonneg _
  simp only [boxDist2, dist2, dotProduct, Fin.sum_univ_three, Pi.sub_apply]
  exact add_le_add (add_le_add (each 0) (each 1)) (each 2)

/-- A box that holds a triangle's corners is at most as far as its points. -/
theorem boxDist2_le_triangle {mesh : BodyMesh α} {b : Bounds α} {fs : List Nat}
    (covers : Covers mesh.v mesh.t b fs) {f : Nat} (member : f ∈ fs) {p q : Vec3 α}
    (inside : q ∈ mesh.triangle f) : boxDist2 b.lo b.hi p ≤ dist2 p q := by
  obtain ⟨spot, within, rfl⟩ := inside
  refine boxDist2_le p _ fun k => ?_
  have a := covers f member 0 (by omega) k
  have b := covers f member 1 (by omega) k
  have c := covers f member 2 (by omega) k
  have rest := sub_nonneg.2 within.toA
  have mix : planePoint (corner mesh.v mesh.t f 0) (corner mesh.v mesh.t f 1)
      (corner mesh.v mesh.t f 2) spot k = (1 - (spot.1 + spot.2)) * corner mesh.v mesh.t f 0 k +
        spot.1 * corner mesh.v mesh.t f 1 k + spot.2 * corner mesh.v mesh.t f 2 k := by
    simp only [planePoint, Pi.add_apply, Pi.smul_apply, Pi.sub_apply, smul_eq_mul]
    ring
  rw [mix]
  constructor
  · linarith [mul_le_mul_of_nonneg_left a.1 rest, mul_le_mul_of_nonneg_left b.1 within.toB,
      mul_le_mul_of_nonneg_left c.1 within.toC]
  · linarith [mul_le_mul_of_nonneg_left a.2 rest, mul_le_mul_of_nonneg_left b.2 within.toB,
      mul_le_mul_of_nonneg_left c.2 within.toC]

end Boxes

section Simulation

variable {α : Type*} [Field α] (std : Std α) (mesh : BodyMesh α) (p : Vec3 α)

/-- The node at a place of `nodes_` is the root of a tree, and its ranges of `order_` hold the
tree's triangles. -/
inductive Roots : Nat → Tree (Bounds α) (List Nat) → Prop where
  | leaf (id : Nat) (b : Bounds α) (fs : List Nat) (lo : (mesh.node id).lo = b.lo)
      (hi : (mesh.node id).hi = b.hi) (isLeaf : (mesh.node id).left = 0)
      (range : slice mesh.order (mesh.node id).start (mesh.node id).count = fs) :
      Roots id (.leaf b fs)
  | node (id : Nat) (b : Bounds α) (left right : Tree (Bounds α) (List Nat))
      (lo : (mesh.node id).lo = b.lo) (hi : (mesh.node id).hi = b.hi)
      (isNode : (mesh.node id).left ≠ 0) (toLeft : Roots (mesh.node id).left left)
      (toRight : Roots (mesh.node id).right right) : Roots id (.node b left right)

variable {mesh}

/-- A tree laid out in the list has its root where it was laid out. -/
theorem roots_layOut (tree : Tree (Bounds α) (List Nat)) {before after : List (Node α)}
    {early late : List Nat}
    (nodes : mesh.nodes = before ++ layOut before.length early.length tree ++ after)
    (order : mesh.order = early ++ under tree ++ late) : Roots mesh before.length tree := by
  induction tree generalizing before after early late with
  | leaf b fs =>
    have here : mesh.node before.length = ⟨b.lo, b.hi, 0, 0, early.length, fs.length⟩ := by
      simp [BodyMesh.node, nodes, layOut]
    refine .leaf _ _ _ ?_ ?_ ?_ ?_
    · rw [here]
    · rw [here]
    · rw [here]
    · rw [here, order, under_leaf]
      exact slice_middle early fs late
  | node b left right leftHypothesis rightHypothesis =>
    have here : mesh.node before.length =
        ⟨b.lo, b.hi, before.length + 1, before.length + 1 + left.size, 0, 0⟩ := by
      simp [BodyMesh.node, nodes, layOut]
    rw [layOut] at nodes
    rw [under_node] at order
    refine .node _ _ _ _ ?_ ?_ ?_ ?_ ?_
    · rw [here]
    · rw [here]
    · rw [here]
      exact Nat.succ_ne_zero _
    · rw [here]
      have sub := @leftHypothesis
        (before ++ [⟨b.lo, b.hi, before.length + 1, before.length + 1 + left.size, 0, 0⟩])
        (layOut (before.length + 1 + left.size) (early.length + (under left).length) right ++ after)
        early (under right ++ late)
      rw [List.length_append, List.length_singleton] at sub
      exact sub (by rw [nodes]; simp) (by rw [order]; simp)
    · rw [here]
      have sub := @rightHypothesis
        (before ++ ⟨b.lo, b.hi, before.length + 1, before.length + 1 + left.size, 0, 0⟩ ::
          layOut (before.length + 1) early.length left)
        after (early ++ under left) late
      have length : (before ++
          (⟨b.lo, b.hi, before.length + 1, before.length + 1 + left.size, 0, 0⟩ : Node α) ::
          layOut (before.length + 1) early.length left).length =
          before.length + 1 + left.size := by
        simp only [List.length_append, List.length_cons, length_layOut]
        omega
      rw [length, List.length_append] at sub
      exact sub (by rw [nodes]; simp) (by rw [order]; simp)

/-- The boxes of the nodes are those of the trees. -/
theorem Roots.box {id : Nat} {tree : Tree (Bounds α) (List Nat)} (roots : Roots mesh id tree) :
    (mesh.node id).lo = tree.label.lo ∧ (mesh.node id).hi = tree.label.hi := by
  cases roots with
  | leaf _ b fs lo hi => exact ⟨lo, hi⟩
  | node _ b left right lo hi => exact ⟨lo, hi⟩

variable (mesh) [LinearOrder α]

/-- The search as a branch and bound. -/
def strategy : Strategy (Bounds α) (List Nat) (Best α) where
  drops b best := decide (¬ boxDist2 b.lo b.hi p < best.h.dist2)
  visit fs best := fs.foldl (Best.visit std mesh p) best
  leftFirst l r := decide (boxDist2 l.lo l.hi p < boxDist2 r.lo r.hi p)

/-- The turn on the places that stands for a turn on the trees. -/
inductive Stands : Turn α → BranchAndBound.Turn (Bounds α) (List Nat) (Best α) → Prop where
  | goes {stack trees best} (same : List.Forall₂ (Roots mesh) stack trees) :
      Stands (.goes stack best) (.goes trees best)
  | ends {best} : Stands (.ends best) (.ends best)
  | breaks {best} : Stands (.breaks best) (.full best)

/-- A turn of `closest` is a turn of the search of the trees. -/
theorem turn_stands {stack : List Nat} {trees : List (Tree (Bounds α) (List Nat))}
    (same : List.Forall₂ (Roots mesh) stack trees) (best : Best α) :
    Stands mesh (turn std mesh p stack best)
      (BranchAndBound.turn (strategy std mesh p) 64 trees best) := by
  cases same with
  | nil => exact .ends
  | @cons id tree stack trees roots rest =>
    unfold turn BranchAndBound.turn
    dsimp only
    have box := roots.box
    rw [box.1, box.2]
    have drops : (strategy std mesh p).drops tree.label best = true ↔
        ¬ boxDist2 tree.label.lo tree.label.hi p < best.h.dist2 := decide_eq_true_iff
    by_cases drop : ¬ boxDist2 tree.label.lo tree.label.hi p < best.h.dist2
    · rw [if_pos drop, if_pos (drops.2 drop)]
      exact .goes rest
    rw [if_neg drop, if_neg (mt drops.1 drop)]
    cases roots with
    | leaf _ b fs lo hi isLeaf range =>
      rw [if_pos isLeaf, range]
      exact .goes rest
    | node _ b left right lo hi isNode toLeft toRight =>
      rw [if_neg isNode]
      dsimp only
      have boxLeft := toLeft.box
      have boxRight := toRight.box
      rw [boxLeft.1, boxLeft.2, boxRight.1, boxRight.2, rest.length_eq]
      by_cases full : trees.length + 2 > 64
      · rw [if_pos full, if_pos full]
        exact .breaks
      rw [if_neg full, if_neg full]
      have leftFirst : (strategy std mesh p).leftFirst left.label right.label = true ↔
          boxDist2 left.label.lo left.label.hi p < boxDist2 right.label.lo right.label.hi p :=
        decide_eq_true_iff
      by_cases nearer : boxDist2 left.label.lo left.label.hi p <
        boxDist2 right.label.lo right.label.hi p
      · rw [if_pos nearer, if_pos (leftFirst.2 nearer)]
        exact .goes (.cons toLeft (.cons toRight rest))
      · rw [if_neg nearer, if_neg (mt leftFirst.1 nearer)]
        exact .goes (.cons toRight (.cons toLeft rest))

/-- The search of the places is the search of the trees. -/
theorem run_eq_search (fuel : Nat) {stack : List Nat} {trees : List (Tree (Bounds α) (List Nat))}
    (same : List.Forall₂ (Roots mesh) stack trees) (best : Best α) :
    run std mesh p fuel stack best =
      BranchAndBound.search (strategy std mesh p) 64 fuel trees best := by
  induction fuel generalizing stack trees best with
  | zero => rfl
  | succ fuel inductionHypothesis =>
    rw [run, BranchAndBound.search]
    have stands := turn_stands std mesh p same best
    generalize turn std mesh p stack best = here at stands
    generalize BranchAndBound.turn (strategy std mesh p) 64 trees best = there at stands
    cases stands with
    | goes same => exact inductionHypothesis same _
    | ends => rfl
    | breaks => rfl

/-- Every stack that the search reaches stands for a stack of trees within its bound. -/
theorem fits_of_takes {bound : Nat} {start after : List Nat × Best α}
    {trees : List (Tree (Bounds α) (List Nat))}
    (same : List.Forall₂ (Roots mesh) start.1 trees) (fits : BranchAndBound.Fits bound trees)
    (taken : Relation.ReflTransGen (Takes std mesh p) start after) :
    ∃ trees, List.Forall₂ (Roots mesh) after.1 trees ∧ BranchAndBound.Fits bound trees := by
  induction taken with
  | refl => exact ⟨trees, same, fits⟩
  | tail _ takes inductionHypothesis =>
    obtain ⟨trees, same, fits⟩ := inductionHypothesis
    next before after _ =>
      have stands := turn_stands std mesh p same before.2
      rw [takes] at stands
      generalize eq : BranchAndBound.turn (strategy std mesh p) 64 trees before.2 = there at stands
      cases stands with
      | goes same' => exact ⟨_, same', fits.turn eq⟩

end Simulation

section Exact

variable {α : Type*} [Field α] [LinearOrder α] {std : Std α} {mesh : BodyMesh α} {p : Vec3 α}

/-- No point of the triangles is nearer than the best hit. -/
def Settled (mesh : BodyMesh α) (p : Vec3 α) (fs : List Nat) (best : Best α) : Prop :=
  ∀ f ∈ fs, mesh.Solid f → ∀ q ∈ mesh.triangle f, best.h.dist2 ≤ dist2 p q

/-- What the search has found so far: nothing below the bound, or a point of a triangle. -/
def Sound (mesh : BodyMesh α) (p : Vec3 α) (maxDist2 : α) (best : Best α) : Prop :=
  (best.found = false ∧ best.h.dist2 = maxDist2) ∨
    (best.found = true ∧ best.h.dist2 < maxDist2 ∧ best.h.tri < nTri mesh.t ∧
      best.h.point ∈ mesh.triangle best.h.tri ∧ best.h.dist2 = dist2 p best.h.point)

/-- What `build` lays out. -/
theorem build_eq {pos : List α} {tris : List Int} {scale : α}
    (built : build std pos tris scale = .ok mesh) :
    mesh.nodes = layOut 0 0 (grow std mesh.v mesh.t (List.range (nTri mesh.t))) ∧
      mesh.order = under (grow std mesh.v mesh.t (List.range (nTri mesh.t))) := by
  unfold build at built
  split at built
  · cases built
  dsimp only at built
  split at built
  · cases built
  injection built with eq
  subst eq
  have laid := buildNode_eq std ((List.range (pos.length / 3 % 2 ^ 32)).map fun i r =>
    pos.getD (3 * i + r) 0 * scale) (tris.map Int.toNat) (nTri (tris.map Int.toNat)) []
    (List.range (nTri (tris.map Int.toNat))) [] [] List.length_range
  rw [List.nil_append, List.append_nil, List.length_nil] at laid
  dsimp only
  rw [laid]
  simp

/-- The corners and the triangles that `build` keeps. -/
theorem build_corners {pos : List α} {tris : List Int} {scale : α}
    (built : build std pos tris scale = .ok mesh) :
    mesh.v = ((List.range (pos.length / 3 % 2 ^ 32)).map fun i (r : Fin 3) =>
      pos.getD (3 * i + r) 0 * scale) ∧ mesh.t = tris.map Int.toNat := by
  unfold build at built
  split at built
  · cases built
  dsimp only at built
  split at built
  · cases built
  injection built with eq
  subst eq
  exact ⟨rfl, rfl⟩

/-- A leaf lowers the best distance or leaves it. -/
theorem visit_le (fs : List Nat) (best : Best α) :
    (fs.foldl (Best.visit std mesh p) best).h.dist2 ≤ best.h.dist2 := by
  induction fs generalizing best with
  | nil => exact le_rfl
  | cons f fs inductionHypothesis =>
    exact (inductionHypothesis _).trans (closestInTri_le f best.h)

variable [IsStrictOrderedRing α]

/-- A leaf that was visited is settled. -/
theorem settled_visit (fs : List Nat) (best : Best α) :
    Settled mesh p fs (fs.foldl (Best.visit std mesh p) best) := by
  induction fs generalizing best with
  | nil => simp [Settled]
  | cons f fs inductionHypothesis =>
    intro other member solid q inside
    obtain rfl | later := List.mem_cons.1 member
    · calc ((other :: fs).foldl (Best.visit std mesh p) best).h.dist2
          ≤ (closestInTri std mesh p other best.h).dist2 := visit_le fs _
        _ ≤ dist2 p (regionHit std mesh p other).point := closestInTri_le_region other best.h
        _ ≤ dist2 p q := (regionHit_isLeast solid).2 q inside
    · exact inductionHypothesis _ other later solid q inside

/-- The search settles what it visits and drops only what is settled. -/
theorem rule : Rule (strategy std mesh p) (Covers mesh.v mesh.t) (Settled mesh p) where
  visited := settled_visit
  kept _ others best settled f member solid q inside :=
    (visit_le others best).trans (settled f member solid q inside)
  dropped _ _ _ drops covers _ member _ _ inside :=
    (not_lt.1 (decide_eq_true_iff.1 drops)).trans (boxDist2_le_triangle covers member inside)

/-- Visits keep the found point a point of a triangle. -/
theorem sound_visit {maxDist2 : α} {fs : List Nat} (inRange : ∀ f ∈ fs, f < nTri mesh.t)
    (solid : ∀ f ∈ fs, mesh.Solid f) {best : Best α} (sound : Sound mesh p maxDist2 best) :
    Sound mesh p maxDist2 (fs.foldl (Best.visit std mesh p) best) := by
  induction fs generalizing best with
  | nil => exact sound
  | cons f fs inductionHypothesis =>
    refine inductionHypothesis (fun other member => inRange other (by simp [member]))
      (fun other member => solid other (by simp [member])) ?_
    obtain ⟨_, same⟩ | ⟨nearer, point, tri, dist⟩ := @closestInTri_cases _ _ _ std mesh p f best.h
    · simpa [Best.visit, same] using sound
    · refine .inr ⟨?_, ?_, ?_, ?_, ?_⟩
      · simp [Best.visit, dist, nearer]
      · have before : best.h.dist2 ≤ maxDist2 := by
          obtain ⟨_, same⟩ | ⟨_, below, _⟩ := sound
          · exact same.le
          · exact below.le
        exact (dist.trans_lt nearer).trans_le before
      · exact tri.trans_lt (inRange f List.mem_cons_self)
      · have inside := (@regionHit_isLeast _ _ _ std mesh p _ f (solid f List.mem_cons_self)).1
        rw [← point] at inside
        exact tri.symm ▸ inside
      · exact dist.trans (by rw [← point]; rfl)

/-- The squares of the distances to the points of all triangles. -/
def distances (mesh : BodyMesh α) (p : Vec3 α) : Set α :=
  {d | ∃ f < nTri mesh.t, ∃ q ∈ mesh.triangle f, d = dist2 p q}

/-- The stack of `closest` is never full, and where no triangle is degenerate the search finds a
nearest point of all triangles exactly when one is near enough. -/
theorem closest_exact {pos : List α} {tris : List Int} {scale : α}
    (built : build std pos tris scale = .ok mesh) (p : Vec3 α) (maxDist2 : α) :
    (∀ after, Relation.ReflTransGen (Takes std mesh p) ([0], Best.start maxDist2) after →
      after.1.length < 64 ∧ ∀ best, turn std mesh p after.1 after.2 ≠ .breaks best) ∧
    ((∀ f < nTri mesh.t, mesh.Solid f) →
      ∃ h found, (∀ fuel > mesh.nodes.length,
          closest std mesh p maxDist2 fuel = some (h, found)) ∧
        (found = true ↔ ∃ d ∈ distances mesh p, d < maxDist2) ∧
        (found = true → h.tri < nTri mesh.t ∧ h.point ∈ mesh.triangle h.tri ∧
          h.dist2 = dist2 p h.point ∧ IsLeast (distances mesh p) h.dist2)) := by
  obtain ⟨nodes, order⟩ := build_eq built
  generalize treeEq : grow std mesh.v mesh.t (List.range (nTri mesh.t)) = tree at nodes order
  have roots : Roots mesh 0 tree :=
    @roots_layOut _ _ mesh tree [] [] [] [] (by simpa using nodes) (by simpa using order)
  have low : tree.height ≤ 30 := by
    rw [← treeEq]
    refine height_grow std mesh.v mesh.t _ 30 ?_
    have small : nTri mesh.t < 2 ^ 32 := Nat.mod_lt _ (by norm_num)
    rw [List.length_range]
    omega
  constructor
  · intro after taken
    obtain ⟨trees, same, fits⟩ := @fits_of_takes _ _ std mesh p _ 30 _ _ [tree]
      (.cons roots .nil) (by simpa [BranchAndBound.Fits] using low) taken
    have short := fits.length_le
    rw [← same.length_eq] at short
    refine ⟨by omega, fun best breaks => ?_⟩
    have stands := turn_stands std mesh p same after.2
    rw [breaks] at stands
    generalize eq : BranchAndBound.turn (strategy std mesh p) 64 trees after.2 = there at stands
    cases stands
    exact fits.not_full (by norm_num) eq
  · intro solid
    have members : ∀ f, f ∈ under tree ↔ f < nTri mesh.t := by
      intro f
      rw [← treeEq, (under_grow std mesh.v mesh.t _).mem_iff, List.mem_range]
    have sizeEq : mesh.nodes.length = tree.size := by rw [nodes, length_layOut]
    obtain ⟨out, result, sound, settled⟩ := @BranchAndBound.search_settles _ _ _
      (strategy std mesh p) 64 (Covers mesh.v mesh.t) (Settled mesh p) tree (Best.start maxDist2)
      (Sound mesh p maxDist2) (mesh.nodes.length + 1) rule (treeEq ▸ sound_grow std _) (by omega)
      (by omega) (.inl ⟨rfl, rfl⟩) (by
        intro fs load best before
        have inside : ∀ f ∈ fs, f < nTri mesh.t := fun f member =>
          (members f).1 (List.mem_flatten.2 ⟨fs, load, member⟩)
        exact sound_visit inside (fun f member => solid f (inside f member)) before)
    have least : ∀ d ∈ distances mesh p, out.h.dist2 ≤ d := by
      rintro d ⟨f, inRange, q, inside, rfl⟩
      obtain ⟨fs, load, member⟩ := List.mem_flatten.1 ((members f).2 inRange)
      exact settled fs load f member (solid f inRange) q inside
    refine ⟨out.h, out.found, fun fuel enough => ?_, ?_, ?_⟩
    · have notEmpty : mesh.nodes.isEmpty = false := by
        cases empty : mesh.nodes with
        | nil =>
          rw [empty] at sizeEq
          cases tree <;> simp [BranchAndBound.Tree.size] at sizeEq
          omega
        | cons node rest => rfl
      rw [closest, notEmpty, run_eq_search std mesh p fuel (.cons roots .nil),
        BranchAndBound.search_mono enough result]
      rfl
    · constructor
      · intro found
        obtain ⟨missed, _⟩ | ⟨_, below, inRange, inside, dist⟩ := sound
        · rw [missed] at found
          cases found
        · exact ⟨_, ⟨_, inRange, _, inside, dist⟩, below⟩
      · rintro ⟨d, member, below⟩
        obtain ⟨_, none⟩ | ⟨found, _⟩ := sound
        · exact absurd (least d member) (not_le.2 (none ▸ below))
        · exact found
    · intro found
      obtain ⟨missed, _⟩ | ⟨_, below, inRange, inside, dist⟩ := sound
      · rw [missed] at found
        cases found
      · exact ⟨inRange, inside, dist, ⟨_, inRange, _, inside, dist⟩, least⟩

end Exact

section Example

/-- Real functions, and `std::nth_element` as a sort. -/
noncomputable def realStd : Std ℝ where
  sqrt := Real.sqrt
  acos := Real.arccos
  nthElement less _ elements := elements.mergeSort fun x y => !less y x
  perm _ _ elements := List.mergeSort_perm elements _

/-- A body of one triangle, and a point above its first corner. -/
theorem closest_exact_triangle :
    ∃ mesh h, build realStd [0, 0, 0, 1, 0, 0, 0, 1, 0] [0, 1, 2] 1 = .ok mesh ∧
      (∀ fuel > mesh.nodes.length, closest realStd mesh ![0, 0, 1] 4 fuel = some (h, true)) ∧
      IsLeast (distances mesh ![0, 0, 1]) h.dist2 := by
  obtain ⟨mesh, built⟩ : ∃ mesh, build realStd [0, 0, 0, 1, 0, 0, 0, 1, 0] [0, 1, 2] 1 = .ok mesh :=
    ⟨_, rfl⟩
  obtain ⟨v, t⟩ := build_corners built
  have one : nTri mesh.t = 1 := by
    rw [t]
    rfl
  have first : corner mesh.v mesh.t 0 0 = ![0, 0, 0] := by
    rw [v, t]
    ext k
    fin_cases k <;> simp [corner]
  have second : corner mesh.v mesh.t 0 1 = ![1, 0, 0] := by
    rw [v, t]
    ext k
    fin_cases k <;> simp [corner]
  have third : corner mesh.v mesh.t 0 2 = ![0, 1, 0] := by
    rw [v, t]
    ext k
    fin_cases k <;> simp [corner]
  have solid : ∀ f < nTri mesh.t, mesh.Solid f := by
    intro f inRange
    obtain rfl : f = 0 := by omega
    rw [BodyMesh.Solid, first, second, third]
    intro zero
    have z := congrFun zero 2
    simp [cross] at z
  have near : ∃ d ∈ distances mesh ![0, 0, 1], d < 4 := by
    refine ⟨dist2 ![0, 0, 1] ![0, 0, 0], ⟨0, by omega, _, ⟨(0, 0), ⟨le_rfl, le_rfl, by simp⟩, ?_⟩,
      rfl⟩, ?_⟩
    · rw [first]
      simp [planePoint]
    · simp [dist2, dotProduct, Fin.sum_univ_three]
  obtain ⟨h, found, result, foundIff, best⟩ :=
    (closest_exact built ![0, 0, 1] 4).2 solid
  obtain rfl := foundIff.2 near
  exact ⟨mesh, h, built, result, (best rfl).2.2.2⟩

end Example

end DressOn.Drape.Body
