import DressOn.Avbd.Step
import DressOn.Lib.BranchAndBound
import DressOn.Lib.TriangleRegions
import Mathlib.Data.List.Basic

/-!
# The body mesh

`BodyMesh::build`: the corners, the pseudo-normals and the tree of boxes over the triangles, a node
a record of one list that names its children by their places in it. The records are those of a
tree grown by halving, laid out from the root on.
-/

namespace DressOn.Drape.Body

open DressOn.Avbd (Vec3)
open BranchAndBound (Tree)
open TriangleRegions (Triangle Products products dist2)

/-- What `build` takes from the standard library. The two parts of `std::nth_element` are some
arrangement of the elements it is given. -/
structure Std (α : Type*) where
  sqrt : α → α
  acos : α → α
  nthElement : (Nat → Nat → Bool) → Nat → List Nat → List Nat
  perm : ∀ less n elements, (nthElement less n elements).Perm elements

/-- `Node`. -/
structure Node (α : Type*) where
  lo : Vec3 α
  hi : Vec3 α
  left : Nat
  right : Nat
  start : Nat
  count : Nat

/-- `BodyMesh`. -/
structure BodyMesh (α : Type*) where
  v : List (Vec3 α)
  t : List Nat
  nodes : List (Node α)
  order : List Nat
  faceN : List (Vec3 α)
  vertN : List (Vec3 α)
  edgeN : List (Vec3 α)

section Build

variable {α : Type*} [Field α] [LinearOrder α] (std : Std α)

/-- `v3d::normalized`. -/
def normalized (w : Vec3 α) : Vec3 α :=
  let n2 := w ⬝ᵥ w
  if 0 < n2 then fun k => w k / std.sqrt n2 else w

/-- `v3d::cross`. -/
def cross (w o : Vec3 α) : Vec3 α :=
  ![w 1 * o 2 - w 2 * o 1, w 2 * o 0 - w 0 * o 2, w 0 * o 1 - w 1 * o 0]

/-- `angle_at`. -/
def angleAt (o a b : Vec3 α) : α :=
  let u := normalized std (a - o)
  let w := normalized std (b - o)
  std.acos (max (-1) (min 1 (u ⬝ᵥ w)))

/-- `BodyMesh::nTri`. -/
def nTri (t : List Nat) : Nat := t.length / 3 % 2 ^ 32

/-- `v[t[3 * f + r]]`. -/
def corner (v : List (Vec3 α)) (t : List Nat) (f r : Nat) : Vec3 α :=
  v.getD (t.getD (3 * f + r) 0) 0

/-- The key of an edge in `edges`. -/
def edgeKey (t : List Nat) (f e : Nat) : Nat × Nat :=
  let i := t.getD (3 * f + e) 0
  let j := t.getD (3 * f + (e + 1) % 3) 0
  (min i j, max i j)

/-- `faceN_[f]`. -/
def faceNormal (v : List (Vec3 α)) (t : List Nat) (f : Nat) : Vec3 α :=
  normalized std (cross (corner v t f 1 - corner v t f 0) (corner v t f 2 - corner v t f 0))

/-- What a face adds to `vertN_`. -/
def addFace (v : List (Vec3 α)) (t : List Nat) (vertN : List (Vec3 α)) (f : Nat) : List (Vec3 α) :=
  let a := corner v t f 0
  let b := corner v t f 1
  let c := corner v t f 2
  let n := faceNormal std v t f
  ((vertN.modify (t.getD (3 * f) 0) (· + angleAt std a b c • n)).modify
    (t.getD (3 * f + 1) 0) (· + angleAt std b c a • n)).modify
    (t.getD (3 * f + 2) 0) (· + angleAt std c a b • n)

/-- The entries of `edges`, in the order they are pushed. -/
def edges (t : List Nat) : List ((Nat × Nat) × Nat) :=
  (List.range (nTri t)).flatMap fun f => (List.range 3).map fun e => (edgeKey t f e, f)

/-- `edgeN_`. -/
def edgeNormals (v : List (Vec3 α)) (t : List Nat) : List (Vec3 α) :=
  (List.range (nTri t)).flatMap fun f => (List.range 3).map fun e =>
    normalized std (((edges t).filter (·.1 = edgeKey t f e)).foldl
      (fun s entry => s + faceNormal std v t entry.2) 0)

/-- `cent`. -/
def centroid (v : List (Vec3 α)) (t : List Nat) (f : Nat) : Vec3 α :=
  fun k => (corner v t f 0 + corner v t f 1 + corner v t f 2) k / 3

/-- `lo`, `hi`, `clo` and `chi`. -/
structure Bounds (α : Type*) where
  lo : Vec3 α
  hi : Vec3 α
  clo : Vec3 α
  chi : Vec3 α

/-- The bounds of no triangle. -/
def Bounds.none : Bounds α :=
  ⟨fun _ => 10 ^ 300, fun _ => -10 ^ 300, fun _ => 10 ^ 300, fun _ => -10 ^ 300⟩

/-- The bounds with a corner. -/
def Bounds.addCorner (b : Bounds α) (p : Vec3 α) : Bounds α :=
  { b with lo := fun a => min (b.lo a) (p a), hi := fun a => max (b.hi a) (p a) }

/-- The bounds with a triangle. -/
def Bounds.add (v : List (Vec3 α)) (t : List Nat) (b : Bounds α) (f : Nat) : Bounds α :=
  let b := (List.range 3).foldl (fun b r => b.addCorner (corner v t f r)) b
  { b with
    clo := fun a => min (b.clo a) (centroid v t f a)
    chi := fun a => max (b.chi a) (centroid v t f a) }

/-- The bounds of the triangles. -/
def boundsOf (v : List (Vec3 α)) (t : List Nat) (fs : List Nat) : Bounds α :=
  fs.foldl (Bounds.add v t) Bounds.none

/-- `axis`. -/
def Bounds.axis (b : Bounds α) : Fin 3 :=
  [1, 2].foldl (fun axis a => if b.chi axis - b.clo axis < b.chi a - b.clo a then a else axis) 0

/-- The comparison of `std::nth_element`. -/
def less (v : List (Vec3 α)) (t : List Nat) (axis : Fin 3) (x y : Nat) : Bool :=
  decide (centroid v t x axis < centroid v t y axis)

/-- `nodes_` and `order_`. -/
structure Growing (α : Type*) where
  nodes : List (Node α)
  order : List Nat

/-- `order_[start .. start + count - 1]`. -/
def slice (order : List Nat) (start count : Nat) : List Nat := (order.drop start).take count

/-- `BodyMesh::buildNode`, with the place of the node it makes. -/
def buildNode (v : List (Vec3 α)) (t : List Nat) (start count : Nat) (st : Growing α) :
    Growing α × Nat :=
  let id := st.nodes.length
  let b := boundsOf v t (slice st.order start count)
  let nodes := st.nodes ++ [⟨b.lo, b.hi, 0, 0, 0, 0⟩]
  if count ≤ 4 then
    (⟨nodes.modify id fun n => { n with start := start, count := count }, st.order⟩, id)
  else
    let mid := start + count / 2
    let order := st.order.take start ++
      std.nthElement (less v t b.axis) (mid - start) (slice st.order start count) ++
      st.order.drop (start + count)
    let l := buildNode v t start (mid - start) ⟨nodes, order⟩
    let r := buildNode v t mid (start + count - mid) l.1
    (⟨r.1.nodes.modify id fun n => { n with left := l.2, right := r.2 }, r.1.order⟩, id)
termination_by count

/-- `BodyMesh::build`. -/
def build (pos : List α) (tris : List Int) (scale : α) : Except String (BodyMesh α) :=
  if pos.length < 9 ∨ pos.length % 3 ≠ 0 ∨ tris.length < 3 ∨ tris.length % 3 ≠ 0 then
    .error "body mesh: 3 floats per vertex and 3 indices per triangle, at least one triangle"
  else
    let nV := pos.length / 3 % 2 ^ 32
    let v : List (Vec3 α) := (List.range nV).map fun i r => pos.getD (3 * i + r) 0 * scale
    if tris.any fun x => decide (x < 0 ∨ nV ≤ x.toNat) then
      .error "body mesh: triangle index out of range"
    else
      let t := tris.map Int.toNat
      let nT := nTri t
      let grown := buildNode std v t 0 nT ⟨[], List.range nT⟩
      .ok
        { v := v
          t := t
          nodes := grown.1.nodes
          order := grown.1.order
          faceN := (List.range nT).map (faceNormal std v t)
          vertN := ((List.range nT).foldl (addFace std v t) (List.replicate nV 0)).map
            (normalized std)
          edgeN := edgeNormals std v t }

end Build

section Laid

variable {α : Type*}

/-- The triangles under a tree, from left to right. -/
def under (tree : Tree (Bounds α) (List Nat)) : List Nat := tree.loads.flatten

/-- The records of a tree, from a place in the list on and over a range of `order_`. -/
def layOut : Nat → Nat → Tree (Bounds α) (List Nat) → List (Node α)
  | _, start, .leaf b fs => [⟨b.lo, b.hi, 0, 0, start, fs.length⟩]
  | id, start, .node b left right =>
      ⟨b.lo, b.hi, id + 1, id + 1 + left.size, 0, 0⟩ ::
        (layOut (id + 1) start left ++
          layOut (id + 1 + left.size) (start + (under left).length) right)

/-- A tree has a record for each node. -/
theorem length_layOut (tree : Tree (Bounds α) (List Nat)) (id start : Nat) :
    (layOut id start tree).length = tree.size := by
  induction tree generalizing id start with
  | leaf b fs => rfl
  | node b left right leftHypothesis rightHypothesis =>
    simp only [layOut, List.length_cons, List.length_append, leftHypothesis, rightHypothesis,
      Tree.size]
    omega

theorem under_node (b : Bounds α) (left right : Tree (Bounds α) (List Nat)) :
    under (.node b left right) = under left ++ under right := by
  simp [under, Tree.loads]

theorem under_leaf (b : Bounds α) (fs : List Nat) : under (.leaf b fs) = fs := by
  simp [under, Tree.loads]

/-- A record changed in its place. -/
theorem modify_append_cons {β : Type*} (g : β → β) (before after : List β) (b : β) :
    (before ++ b :: after).modify before.length g = before ++ g b :: after := by
  induction before with
  | nil => rfl
  | cons first before inductionHypothesis =>
    rw [List.cons_append, List.length_cons, List.modify_succ_cons, inductionHypothesis]
    rfl

/-- A range between two parts. -/
theorem slice_middle (before fs after : List Nat) :
    slice (before ++ fs ++ after) before.length fs.length = fs := by
  simp [slice]

end Laid

section Grown

variable {α : Type*} [Field α] [LinearOrder α] (std : Std α) (v : List (Vec3 α)) (t : List Nat)

/-- The tree that `buildNode` grows over these triangles. -/
def grow (fs : List Nat) : Tree (Bounds α) (List Nat) :=
  let b := boundsOf v t fs
  if fs.length ≤ 4 then .leaf b fs
  else
    let sorted := std.nthElement (less v t b.axis) (fs.length / 2) fs
    .node b (grow (sorted.take (fs.length / 2))) (grow (sorted.drop (fs.length / 2)))
termination_by fs.length
decreasing_by
  · simp only [List.length_take, (std.perm _ _ _).length_eq]
    omega
  · simp only [List.length_drop, (std.perm _ _ _).length_eq]
    omega

/-- The tree holds the triangles it was grown over. -/
theorem under_grow (fs : List Nat) : (under (grow std v t fs)).Perm fs := by
  fun_induction grow std v t fs with
  | case1 fs b small => rw [under_leaf]
  | case2 fs b large sorted leftHypothesis rightHypothesis =>
    rw [under_node]
    have halves := leftHypothesis.append rightHypothesis
    rw [List.take_append_drop] at halves
    exact halves.trans (std.perm _ _ _)

/-- A tree over few triangles is low. -/
theorem height_grow (fs : List Nat) (h : Nat) (few : fs.length ≤ 4 * 2 ^ h) :
    (grow std v t fs).height ≤ h := by
  induction h generalizing fs with
  | zero =>
    unfold grow
    dsimp only
    rw [if_pos (by omega)]
    exact le_rfl
  | succ h inductionHypothesis =>
    unfold grow
    dsimp only
    split
    · exact Nat.zero_le _
    next large =>
      have left := inductionHypothesis
        ((std.nthElement (less v t (boundsOf v t fs).axis) (fs.length / 2) fs).take (fs.length / 2))
        (by simp only [List.length_take]; omega)
      have right := inductionHypothesis
        ((std.nthElement (less v t (boundsOf v t fs).axis) (fs.length / 2) fs).drop (fs.length / 2))
        (by simp only [List.length_drop, (std.perm _ _ _).length_eq]; omega)
      simp only [BranchAndBound.Tree.height]
      omega

/-- `buildNode` lays the grown tree out after the records there are, and writes its triangles into
its range of `order_`. -/
theorem buildNode_eq (count : Nat) (before fs after : List Nat) (nodes : List (Node α))
    (length : fs.length = count) :
    buildNode std v t before.length count ⟨nodes, before ++ fs ++ after⟩ =
      (⟨nodes ++ layOut nodes.length before.length (grow std v t fs),
        before ++ under (grow std v t fs) ++ after⟩, nodes.length) := by
  induction count using Nat.strongRecOn generalizing before fs after nodes with
  | ind count inductionHypothesis =>
    subst length
    unfold buildNode grow
    dsimp only
    rw [slice_middle]
    generalize boundsEq : boundsOf v t fs = b
    split
    · rw [modify_append_cons, under_leaf]
      rfl
    next large =>
      generalize half : fs.length / 2 = n
      have middle : before.length + n - before.length = n := by omega
      have rest : before.length + fs.length - (before.length + n) = fs.length - n := by omega
      rw [middle, rest]
      generalize sortedEq : std.nthElement (less v t b.axis) n fs = sorted
      have sortedLength : sorted.length = fs.length := sortedEq ▸ (std.perm _ _ _).length_eq
      have order : (before ++ fs ++ after).take before.length ++ sorted ++
          (before ++ fs ++ after).drop (before.length + fs.length) =
          before ++ sorted.take n ++ (sorted.drop n ++ after) := by
        rw [List.append_assoc before (sorted.take n), ← List.append_assoc (sorted.take n),
          List.take_append_drop]
        simp
      have atLeft := inductionHypothesis n (by omega) before (sorted.take n)
        (sorted.drop n ++ after) (nodes ++ [⟨b.lo, b.hi, 0, 0, 0, 0⟩]) (by simp only [List.length_take]; omega)
      have underLeft : (under (grow std v t (sorted.take n))).length = n := by
        rw [(under_grow std v t _).length_eq, List.length_take]
        omega
      have atRight := inductionHypothesis (fs.length - n) (by omega)
        (before ++ under (grow std v t (sorted.take n))) (sorted.drop n) after
        (nodes ++ [⟨b.lo, b.hi, 0, 0, 0, 0⟩] ++
          layOut (nodes.length + 1) before.length
            (grow std v t (sorted.take n)))
        (by simp only [List.length_drop]; omega)
      have records : (nodes ++ [(⟨b.lo, b.hi, 0, 0, 0, 0⟩ : Node α)] ++ layOut (nodes.length + 1)
          before.length (grow std v t (sorted.take n))).length =
          nodes.length + 1 + (grow std v t (sorted.take n)).size := by
        simp only [List.length_append, List.length_singleton, length_layOut]
      rw [List.length_append, underLeft, records] at atRight
      rw [List.length_append, List.length_singleton] at atLeft
      rw [order, atLeft]
      dsimp only
      rw [← List.append_assoc, atRight]
      dsimp only
      rw [List.append_assoc nodes, List.singleton_append, List.append_assoc nodes, List.cons_append,
        modify_append_cons, layOut, under_node, underLeft, List.append_assoc before]

end Grown

end DressOn.Drape.Body
