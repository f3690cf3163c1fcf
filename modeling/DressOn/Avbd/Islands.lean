import DressOn.Avbd.ClothGrid
import Mathlib.Data.List.GetD

/-!
# Islands

`partition_islands` gives every vertex, triangle, bending and attachment of a mesh to one island,
and gives connected meshes that were combined back.
-/

namespace DressOn.Avbd.ClothGrid

open CountingSort (bucket perm_flatMap_bucket_of_lt)
open Portions (Numbering numberAll)
open UnionFind (find Forest Represents Joins)

section Components

variable {α : Type*} (mesh : ClothMesh α)

/-- A union joins the classes of its vertices. -/
theorem joins_ufUnion {nV a b : Nat} (insideA : a < nV) (insideB : b < nV) (parent : Nat → Nat) :
    Joins nV a b parent (ufUnion nV parent a b) := by
  intro label forest
  obtain ⟨rootB, forestB⟩ := forest.find b
  obtain ⟨rootA, forestA⟩ := forestB.find a
  refine ⟨UnionFind.relabel label (label a) (label b), ?_, UnionFind.merged_relabel label a b⟩
  unfold ufUnion
  dsimp only
  rw [rootA, rootB]
  exact forestA.link (forest.label_lt insideA) (forest.label_lt insideB) (forest.label_label a)
    (forest.label_label b)

/-- A link is one of a triangle or of a bending. -/
theorem mem_links {mesh : ClothMesh α} {link : Nat × Nat} : link ∈ mesh.links ↔
    (∃ t < mesh.nTri, ∃ r ∈ [1, 2], link = (mesh.tri t 0, mesh.tri t r)) ∨
      ∃ b < mesh.nBend, ∃ r ∈ [1, 2, 3], link = (mesh.bend b 0, mesh.bend b r) := by
  simp only [ClothMesh.links, List.mem_append, List.mem_flatMap, List.mem_map, List.mem_range,
    eq_comm (a := link)]

/-- Every link is one of vertices. -/
theorem ClothMesh.Proper.links {mesh : ClothMesh α} (proper : mesh.Proper) :
    ∀ link ∈ mesh.links, link.1 < mesh.nVerts ∧ link.2 < mesh.nVerts := by
  intro link member
  obtain ⟨t, inside, r, _, rfl⟩ | ⟨b, inside, r, _, rfl⟩ := mem_links.1 member
  · exact ⟨proper.tri t inside 0, proper.tri t inside r⟩
  · exact ⟨proper.bend b inside 0, proper.bend b inside r⟩

/-- The loops unite the links one after the other. -/
theorem unite_eq : unite mesh =
    mesh.links.foldl (fun parent link => ufUnion mesh.nVerts parent link.1 link.2) fun x => x := by
  unfold unite ClothMesh.links
  rw [List.foldl_append, List.foldl_flatMap, List.foldl_flatMap]
  rfl

/-- The classes of the united forest are those of the links. -/
theorem represents_unite {mesh : ClothMesh α} (proper : mesh.Proper) :
    ∃ label, Represents mesh.nVerts mesh.links (unite mesh) label := by
  rw [unite_eq]
  exact UnionFind.represents_foldl fun link member parent =>
    joins_ufUnion (proper.links link member).1 (proper.links link member).2 parent

/-- The loop numbers the roots. -/
theorem foldl_islandStep {nV : Nat} {label : Nat → Nat} (vs : List Nat) {parent : Nat → Nat}
    (forest : Forest nV parent label) (s : Numbering Nat) :
    (vs.foldl (islandStep nV) (parent, s)).2 = (vs.map label).foldl Numbering.add s := by
  induction vs generalizing parent s with
  | nil => rfl
  | cons v vs inductionHypothesis =>
    obtain ⟨root, forest'⟩ := forest.find v
    rw [List.foldl_cons, List.map_cons, List.foldl_cons, islandStep]
    dsimp only
    rw [inductionHypothesis forest', root]

/-- The islands are numbered by the roots. -/
theorem islands_eq {mesh : ClothMesh α} {label : Nat → Nat}
    (represents : Represents mesh.nVerts mesh.links (unite mesh) label) :
    islands mesh = numberAll ((List.range mesh.nVerts).map label) :=
  foldl_islandStep _ represents.1 _

theorem length_islands {mesh : ClothMesh α} (proper : mesh.Proper) :
    (islands mesh).numbers.length = mesh.nVerts := by
  obtain ⟨label, represents⟩ := represents_unite proper
  rw [islands_eq represents, Portions.length_numbers, List.length_map, List.length_range]

/-- Every vertex is on an island. -/
theorem islandOf_lt {mesh : ClothMesh α} (proper : mesh.Proper) {v : Nat}
    (inside : v < mesh.nVerts) : islandOf mesh v < (islands mesh).next := by
  have length := length_islands proper
  obtain ⟨label, represents⟩ := represents_unite proper
  have below := @Portions.numbers_lt _ _ ((List.range mesh.nVerts).map label) v
  rw [← islands_eq represents] at below
  rw [islandOf, List.getD_eq_getElem _ _ (length ▸ inside)]
  exact below _

/-- Vertices are on one island when the constraints hold them together. -/
theorem islandOf_eq_iff {mesh : ClothMesh α} (proper : mesh.Proper) {u v : Nat}
    (insideU : u < mesh.nVerts) (insideV : v < mesh.nVerts) :
    islandOf mesh u = islandOf mesh v ↔ UnionFind.Connected mesh.links u v := by
  have length := length_islands proper
  obtain ⟨label, represents⟩ := represents_unite proper
  have same := @Portions.numbers_eq_iff _ _ ((List.range mesh.nVerts).map label) u v
    (by simpa using insideU) (by simpa using insideV)
  rw [← islands_eq represents, List.getElem?_eq_getElem (length ▸ insideU),
    List.getElem?_eq_getElem (length ▸ insideV), Option.some_inj] at same
  rw [islandOf, islandOf, List.getD_eq_getElem _ _ (length ▸ insideU),
    List.getD_eq_getElem _ _ (length ▸ insideV), same, ← represents.2 u v]
  simp

/-- The corners of a triangle are on one island. -/
theorem islandOf_tri {mesh : ClothMesh α} (proper : mesh.Proper) {t : Nat} (inside : t < mesh.nTri)
    (r : Fin 3) : islandOf mesh (mesh.tri t r) = islandOf mesh (mesh.tri t 0) := by
  rw [islandOf_eq_iff proper (proper.tri t inside r) (proper.tri t inside 0)]
  refine .symm _ _ ?_
  match r with
  | 0 => exact .refl _
  | 1 => exact .rel _ _ (mem_links.2 (.inl ⟨t, inside, 1, by simp, rfl⟩))
  | 2 => exact .rel _ _ (mem_links.2 (.inl ⟨t, inside, 2, by simp, rfl⟩))

/-- The vertices of a bending are on one island. -/
theorem islandOf_bend {mesh : ClothMesh α} (proper : mesh.Proper) {b : Nat}
    (inside : b < mesh.nBend) (r : Fin 4) :
    islandOf mesh (mesh.bend b r) = islandOf mesh (mesh.bend b 0) := by
  rw [islandOf_eq_iff proper (proper.bend b inside r) (proper.bend b inside 0)]
  refine .symm _ _ ?_
  match r with
  | 0 => exact .refl _
  | 1 => exact .rel _ _ (mem_links.2 (.inr ⟨b, inside, 1, by simp, rfl⟩))
  | 2 => exact .rel _ _ (mem_links.2 (.inr ⟨b, inside, 2, by simp, rfl⟩))
  | 3 => exact .rel _ _ (mem_links.2 (.inr ⟨b, inside, 3, by simp, rfl⟩))

end Components

section Shared

variable {α : Type*} (mesh : ClothMesh α)

/-- `localOf[v]`. -/
def localOf (v : Nat) : Nat :=
  ((List.range mesh.nVerts).map fun v =>
    (bucket (islandOf mesh) (List.range v) (islandOf mesh v)).length).getD v 0

/-- The vertices of an island. -/
def islandVerts (k : Nat) : List Nat := bucket (islandOf mesh) (List.range mesh.nVerts) k

/-- The triangles of an island. -/
def islandTris (k : Nat) : List Nat :=
  bucket (fun t => islandOf mesh (mesh.tri t 0)) (List.range mesh.nTri) k

/-- The bendings of an island. -/
def islandBends (k : Nat) : List Nat :=
  bucket (fun b => islandOf mesh (mesh.bend b 0)) (List.range mesh.nBend) k

/-- The attachments of an island. -/
def islandAttachs (k : Nat) : List Nat :=
  bucket (fun a => islandOf mesh (mesh.attach a)) (List.range mesh.nAttach) k

/-- The place of a vertex among those of its island. -/
theorem localOf_eq {mesh : ClothMesh α} {v : Nat} (inside : v < mesh.nVerts) :
    localOf mesh v = (bucket (islandOf mesh) (List.range v) (islandOf mesh v)).length := by
  rw [localOf, List.getD_eq_getElem _ _ (by simpa using inside)]
  simp

/-- The place of a vertex is its own. -/
theorem getElem?_islandVerts {mesh : ClothMesh α} {v k : Nat} (inside : v < mesh.nVerts)
    (onIsland : islandOf mesh v = k) : (islandVerts mesh k)[localOf mesh v]? = some v := by
  subst onIsland
  rw [localOf_eq inside]
  exact Portions.getElem?_bucket (islandOf mesh) inside

variable [Zero α]

/-- The loop over the vertices fills the islands and finds the places. -/
theorem foldl_vertexStep {mesh : ClothMesh α} (proper : mesh.Proper) {m : Nat}
    (inside : m ≤ mesh.nVerts) :
    (List.range m).foldl (vertexStep mesh) (List.replicate (islands mesh).next .empty, []) =
      ((List.range (islands mesh).next).map fun k =>
        cut mesh (localOf mesh) (bucket (islandOf mesh) (List.range m) k) [] [] [],
        (List.range m).map fun v =>
          (bucket (islandOf mesh) (List.range v) (islandOf mesh v)).length) := by
  induction m with
  | zero => simp [bucket, cut, ClothMesh.empty, List.map_const']
  | succ m inductionHypothesis =>
    have onIsland := islandOf_lt proper (show m < mesh.nVerts by omega)
    rw [List.range_succ, List.foldl_append, inductionHypothesis (by omega)]
    simp only [List.foldl_cons, List.foldl_nil, vertexStep, List.map_append, List.map_singleton]
    rw [Portions.modify_map_range]
    refine Prod.ext ?_ ?_
    · refine List.map_congr_left fun k _ => ?_
      by_cases here : k = islandOf mesh m
      · subst here
        simp [bucket, cut, pushVertex]
      · have other : ¬ islandOf mesh m = k := fun eq => here eq.symm
        simp [bucket, here, other]
    · simp [onIsland, cut, ClothMesh.nVerts]

/-- One island, its faces apart. -/
def island (k : Nat) : ClothMesh α :=
  cut mesh (localOf mesh) (islandVerts mesh k) (islandTris mesh k) (islandBends mesh k) (islandAttachs mesh k)

/-- The islands of a mesh. -/
theorem partitionIslands_eq {mesh : ClothMesh α} (proper : mesh.Proper) :
    partitionIslands mesh = (List.range (islands mesh).next).map fun k =>
      { island mesh k with faces := (island mesh k).triIdx } := by
  unfold partitionIslands
  rw [foldl_vertexStep proper le_rfl]
  dsimp only
  have places : (fun v => ((List.range mesh.nVerts).map fun v =>
      (bucket (islandOf mesh) (List.range v) (islandOf mesh v)).length).getD v 0) =
      localOf mesh := rfl
  rw [places, Portions.foldl_modify, Portions.foldl_modify, Portions.foldl_modify, List.map_map]
  refine List.map_congr_left fun k _ => ?_
  simp only [Function.comp_apply, foldl_pushTri, foldl_pushBend, foldl_pushAttach, List.nil_append]
  rfl

/-- An island is the part of the mesh at its elements. -/
theorem partOf_island {mesh : ClothMesh α} (proper : mesh.Proper) (k : Nat) :
    PartOf mesh (islandVerts mesh k) (islandTris mesh k) (islandBends mesh k)
      (islandAttachs mesh k) { island mesh k with faces := (island mesh k).triIdx } := by
  refine partOf_cut mesh (fun t member r => ?_) (fun b member r => ?_) fun a member => ?_
  · obtain ⟨inRange, here⟩ := List.mem_filter.1 member
    have inside := List.mem_range.1 inRange
    exact getElem?_islandVerts (proper.tri t inside r)
      ((islandOf_tri proper inside r).trans (beq_iff_eq.1 here))
  · obtain ⟨inRange, here⟩ := List.mem_filter.1 member
    have inside := List.mem_range.1 inRange
    exact getElem?_islandVerts (proper.bend b inside r)
      ((islandOf_bend proper inside r).trans (beq_iff_eq.1 here))
  · obtain ⟨inRange, here⟩ := List.mem_filter.1 member
    exact getElem?_islandVerts (proper.attach a (List.mem_range.1 inRange)) (beq_iff_eq.1 here)

end Shared

section Append

variable {α : Type*}

/-- Two meshes side by side. -/
def append (m p : ClothMesh α) : ClothMesh α := (combineStep (m, m.nVerts) p).1

/-- A list read at all its places. -/
theorem map_getD_range {β : Type*} (l : List β) (d : β) {n : Nat} (length : l.length = n) :
    ((List.range n).map fun i => l.getD i d) = l := by
  subst length
  refine List.ext_getElem (by simp) fun i _ inside => ?_
  rw [List.getElem_map, List.getElem_range, List.getD_eq_getElem _ _ inside]

variable {m p : ClothMesh α}

theorem append_nVerts : (append m p).nVerts = m.nVerts + p.nVerts := List.length_append
theorem append_nTri : (append m p).nTri = m.nTri + p.nTri := List.length_append
theorem append_nBend : (append m p).nBend = m.nBend + p.nBend := List.length_append

theorem append_nAttach : (append m p).nAttach = m.nAttach + p.nAttach := by
  simp [append, combineStep, ClothMesh.nAttach]

theorem append_tri_low (proper : m.Proper) {t : Nat} (low : t < m.nTri) :
    (append m p).tri t = m.tri t :=
  List.getD_append _ _ _ _ (proper.triIdx ▸ low)

theorem append_bend_low (proper : m.Proper) {b : Nat} (low : b < m.nBend) :
    (append m p).bend b = m.bend b :=
  List.getD_append _ _ _ _ (proper.bendIdx ▸ low)

theorem append_attach_low {a : Nat} (low : a < m.nAttach) : (append m p).attach a = m.attach a :=
  List.getD_append _ _ _ _ low

/-- A row of the second mesh, moved up. -/
theorem getD_append_map {β γ : Type*} (rows : List γ) (rows' : List β) (f : β → γ) (d : β) (d' : γ)
    {n i : Nat} (length : rows.length = n) (inside : i < rows'.length) :
    (rows ++ rows'.map f).getD (n + i) d' = f (rows'.getD i d) := by
  subst length
  rw [List.getD_append_right _ _ _ _ (Nat.le_add_right _ _), Nat.add_sub_cancel_left,
    List.getD_eq_getElem _ _ (by simpa using inside), List.getD_eq_getElem _ _ inside,
    List.getElem_map]

theorem append_tri_high (proper : m.Proper) (proper' : p.Proper) {t : Nat} (inside : t < p.nTri) :
    (append m p).tri (m.nTri + t) = shift m.nVerts (p.tri t) :=
  getD_append_map _ _ _ _ _ proper.triIdx (proper'.triIdx ▸ inside)

theorem append_bend_high (proper : m.Proper) (proper' : p.Proper) {b : Nat} (inside : b < p.nBend) :
    (append m p).bend (m.nBend + b) = shift m.nVerts (p.bend b) :=
  getD_append_map _ _ _ _ _ proper.bendIdx (proper'.bendIdx ▸ inside)

theorem append_attach_high {a : Nat} (inside : a < p.nAttach) :
    (append m p).attach (m.nAttach + a) = p.attach a + m.nVerts :=
  getD_append_map _ _ _ _ _ rfl inside

/-- Both meshes fit together. -/
theorem proper_append (proper : m.Proper) (proper' : p.Proper) : (append m p).Proper where
  mass := by
    rw [append_nVerts, ← proper.mass, ← proper'.mass]
    exact List.length_append
  triIdx := by
    rw [append_nTri, ← proper.triIdx, ← proper'.triIdx]
    simp [append, combineStep]
  bendIdx := by
    rw [append_nBend, ← proper.bendIdx, ← proper'.bendIdx]
    simp [append, combineStep]
  bendWeight := by
    rw [append_nBend, ← proper.bendWeight, ← proper'.bendWeight]
    exact List.length_append
  attachFixed := by
    rw [append_nAttach, ← proper.attachFixed, ← proper'.attachFixed]
    exact List.length_append
  tri := by
    intro t inside r
    rw [append_nTri] at inside
    rw [append_nVerts]
    by_cases low : t < m.nTri
    · rw [append_tri_low proper low]
      exact Nat.lt_add_right _ (proper.tri t low r)
    · obtain ⟨i, rfl⟩ := Nat.exists_eq_add_of_le (not_lt.1 low)
      rw [append_tri_high proper proper' (by omega)]
      have := proper'.tri i (by omega) r
      simp only [shift]
      omega
  bend := by
    intro b inside r
    rw [append_nBend] at inside
    rw [append_nVerts]
    by_cases low : b < m.nBend
    · rw [append_bend_low proper low]
      exact Nat.lt_add_right _ (proper.bend b low r)
    · obtain ⟨i, rfl⟩ := Nat.exists_eq_add_of_le (not_lt.1 low)
      rw [append_bend_high proper proper' (by omega)]
      have := proper'.bend i (by omega) r
      simp only [shift]
      omega
  attach := by
    intro a inside
    rw [append_nAttach] at inside
    rw [append_nVerts]
    by_cases low : a < m.nAttach
    · rw [append_attach_low low]
      exact Nat.lt_add_right _ (proper.attach a low)
    · obtain ⟨i, rfl⟩ := Nat.exists_eq_add_of_le (not_lt.1 low)
      rw [append_attach_high (by omega)]
      have := proper'.attach i (by omega)
      omega

/-- The links of two meshes side by side. -/
theorem links_append (proper : m.Proper) (proper' : p.Proper) (link : Nat × Nat) :
    link ∈ (append m p).links ↔
      link ∈ m.links ∨ ∃ own ∈ p.links, link = (own.1 + m.nVerts, own.2 + m.nVerts) := by
  simp only [mem_links]
  constructor
  · rintro (⟨t, inside, r, turn, rfl⟩ | ⟨b, inside, r, turn, rfl⟩)
    · rw [append_nTri] at inside
      by_cases low : t < m.nTri
      · rw [append_tri_low proper low]
        exact .inl (.inl ⟨t, low, r, turn, rfl⟩)
      · obtain ⟨i, rfl⟩ := Nat.exists_eq_add_of_le (not_lt.1 low)
        rw [append_tri_high proper proper' (by omega)]
        exact .inr ⟨_, .inl ⟨i, by omega, r, turn, rfl⟩, rfl⟩
    · rw [append_nBend] at inside
      by_cases low : b < m.nBend
      · rw [append_bend_low proper low]
        exact .inl (.inr ⟨b, low, r, turn, rfl⟩)
      · obtain ⟨i, rfl⟩ := Nat.exists_eq_add_of_le (not_lt.1 low)
        rw [append_bend_high proper proper' (by omega)]
        exact .inr ⟨_, .inr ⟨i, by omega, r, turn, rfl⟩, rfl⟩
  · rw [append_nTri, append_nBend]
    rintro ((⟨t, inside, r, turn, rfl⟩ | ⟨b, inside, r, turn, rfl⟩) |
      ⟨_, ⟨t, inside, r, turn, rfl⟩ | ⟨b, inside, r, turn, rfl⟩, rfl⟩)
    · refine .inl ⟨t, by omega, r, turn, ?_⟩
      rw [append_tri_low proper inside]
    · refine .inr ⟨b, by omega, r, turn, ?_⟩
      rw [append_bend_low proper inside]
    · refine .inl ⟨m.nTri + t, by omega, r, turn, ?_⟩
      rw [append_tri_high proper proper' inside]
      rfl
    · refine .inr ⟨m.nBend + b, by omega, r, turn, ?_⟩
      rw [append_bend_high proper proper' inside]
      rfl

/-- The first mesh keeps its classes. -/
theorem connected_append_low (proper : m.Proper) (proper' : p.Proper) {u v : Nat}
    (insideU : u < m.nVerts) :
    UnionFind.Connected (append m p).links u v ↔ UnionFind.Connected m.links u v := by
  constructor
  · intro connected
    have alike := UnionFind.Connected.iff
      (fun z => z < m.nVerts ∧ UnionFind.Connected m.links u z) (fun a b member => ?_) connected
    · exact (alike.1 ⟨insideU, .refl _⟩).2
    · obtain own | ⟨own, _, same⟩ := (links_append proper proper' _).1 member
      · obtain ⟨insideA, insideB⟩ := proper.links _ own
        exact ⟨fun left => ⟨insideB, .trans _ _ _ left.2 (.rel _ _ own)⟩,
          fun right => ⟨insideA, .trans _ _ _ right.2 (.symm _ _ (.rel _ _ own))⟩⟩
      · obtain ⟨rfl, rfl⟩ := Prod.mk.inj same
        constructor <;> rintro ⟨inside, _⟩ <;> omega
  · exact UnionFind.connected_mono fun link member =>
      (links_append proper proper' link).2 (.inl member)

/-- The second mesh is of one class. -/
theorem connected_append_high (proper : m.Proper) (proper' : p.Proper) {u v : Nat}
    (connected : UnionFind.Connected p.links u v) :
    UnionFind.Connected (append m p).links (u + m.nVerts) (v + m.nVerts) := by
  induction connected with
  | rel a b member =>
    exact .rel _ _ ((links_append proper proper' _).2 (.inr ⟨_, member, rfl⟩))
  | refl a => exact .refl _
  | symm a b _ inductionHypothesis => exact .symm _ _ inductionHypothesis
  | trans a b c _ _ first second => exact .trans _ _ _ first second

/-- No constraint holds the two meshes together. -/
theorem not_connected_append (proper : m.Proper) (proper' : p.Proper) {u v : Nat}
    (low : u < m.nVerts) (high : m.nVerts ≤ v) :
    ¬ UnionFind.Connected (append m p).links u v := by
  intro connected
  have alike := UnionFind.Connected.iff (fun z => z < m.nVerts) (fun a b member => ?_) connected
  · have := alike.1 low
    omega
  · obtain own | ⟨own, _, same⟩ := (links_append proper proper' _).1 member
    · obtain ⟨insideA, insideB⟩ := proper.links _ own
      exact iff_of_true insideA insideB
    · obtain ⟨rfl, rfl⟩ := Prod.mk.inj same
      constructor <;> intro inside <;> omega

/-- The islands of the first mesh keep their numbers, and the second mesh is one more. -/
theorem islands_append (proper : m.Proper) (proper' : p.Proper) (connected : p.Connected) :
    (islands (append m p)).numbers =
        (islands m).numbers ++ List.replicate p.nVerts (islands m).next ∧
      (islands (append m p)).next = (islands m).next + 1 := by
  obtain ⟨label', represents'⟩ := represents_unite (proper_append proper proper')
  obtain ⟨label, represents⟩ := represents_unite proper
  rw [islands_eq represents', islands_eq represents, append_nVerts, List.range_add, List.map_append,
    List.map_map]
  have high : (List.range p.nVerts).map (label' ∘ (m.nVerts + ·)) =
      List.replicate p.nVerts (label' m.nVerts) := by
    refine List.eq_replicate_iff.2 ⟨by simp, fun key member => ?_⟩
    obtain ⟨i, inRange, rfl⟩ := List.mem_map.1 member
    have linked := connected_append_high proper proper'
      (connected.linked i (List.mem_range.1 inRange) 0 connected.nonempty)
    rw [Nat.zero_add, Nat.add_comm] at linked
    exact (represents'.2 _ _).2 linked
  have fresh : label' m.nVerts ∉ (List.range m.nVerts).map label' := by
    intro member
    obtain ⟨u, inRange, same⟩ := List.mem_map.1 member
    exact not_connected_append proper proper' (List.mem_range.1 inRange) le_rfl
      ((represents'.2 _ _).1 same)
  have low := @Portions.numberAll_congr _ _ _ _ ((List.range m.nVerts).map label)
    ((List.range m.nVerts).map label') (by simp) (by
      intro i j insideI insideJ
      rw [List.length_map, List.length_range] at insideI insideJ
      simp only [List.getElem_map, List.getElem_range]
      rw [represents'.2, represents.2, connected_append_low proper proper' insideI])
  obtain ⟨n, count⟩ := Nat.exists_eq_add_of_lt connected.nonempty
  rw [Nat.zero_add] at count
  have appended := Portions.numberAll_append_replicate fresh n
  rw [high, count, appended.1, appended.2.1, low.1, low.2]
  exact ⟨rfl, rfl⟩

theorem islandOf_append_low (proper : m.Proper) (proper' : p.Proper) (connected : p.Connected)
    {v : Nat} (low : v < m.nVerts) : islandOf (append m p) v = islandOf m v := by
  rw [islandOf, (islands_append proper proper' connected).1,
    List.getD_append _ _ _ _ (length_islands proper ▸ low)]
  rfl

theorem islandOf_append_high (proper : m.Proper) (proper' : p.Proper) (connected : p.Connected)
    {i : Nat} (inside : i < p.nVerts) :
    islandOf (append m p) (m.nVerts + i) = (islands m).next := by
  have length := length_islands proper
  rw [islandOf, (islands_append proper proper' connected).1,
    List.getD_append_right _ _ _ _ (by omega), length, Nat.add_sub_cancel_left,
    List.getD_replicate _ inside]

/-- The vertices of the islands. -/
theorem islandVerts_append (proper : m.Proper) (proper' : p.Proper) (connected : p.Connected)
    (k : Nat) : islandVerts (append m p) k =
      if k = (islands m).next then (List.range p.nVerts).map (m.nVerts + ·)
      else islandVerts m k := by
  rw [islandVerts, append_nVerts]
  exact Portions.bucket_range_add _ (fun v low => islandOf_append_low proper proper' connected low)
    (fun v low => islandOf_lt proper low)
    (fun i inside => islandOf_append_high proper proper' connected inside) k

theorem islandTris_append (proper : m.Proper) (proper' : p.Proper) (connected : p.Connected)
    (k : Nat) : islandTris (append m p) k =
      if k = (islands m).next then (List.range p.nTri).map (m.nTri + ·) else islandTris m k := by
  rw [islandTris, append_nTri]
  refine Portions.bucket_range_add _ (fun t low => ?_) (fun t low => ?_) (fun i inside => ?_) k
  · rw [append_tri_low proper low,
      islandOf_append_low proper proper' connected (proper.tri t low 0)]
  · exact islandOf_lt proper (proper.tri t low 0)
  · rw [append_tri_high proper proper' inside, shift, Nat.add_comm]
    exact islandOf_append_high proper proper' connected (proper'.tri i inside 0)

theorem islandBends_append (proper : m.Proper) (proper' : p.Proper) (connected : p.Connected)
    (k : Nat) : islandBends (append m p) k =
      if k = (islands m).next then (List.range p.nBend).map (m.nBend + ·) else islandBends m k := by
  rw [islandBends, append_nBend]
  refine Portions.bucket_range_add _ (fun b low => ?_) (fun b low => ?_) (fun i inside => ?_) k
  · rw [append_bend_low proper low,
      islandOf_append_low proper proper' connected (proper.bend b low 0)]
  · exact islandOf_lt proper (proper.bend b low 0)
  · rw [append_bend_high proper proper' inside, shift, Nat.add_comm]
    exact islandOf_append_high proper proper' connected (proper'.bend i inside 0)

theorem islandAttachs_append (proper : m.Proper) (proper' : p.Proper) (connected : p.Connected)
    (k : Nat) : islandAttachs (append m p) k =
      if k = (islands m).next then (List.range p.nAttach).map (m.nAttach + ·)
      else islandAttachs m k := by
  rw [islandAttachs, append_nAttach]
  refine Portions.bucket_range_add _ (fun a low => ?_) (fun a low => ?_) (fun i inside => ?_) k
  · rw [append_attach_low low, islandOf_append_low proper proper' connected (proper.attach a low)]
  · exact islandOf_lt proper (proper.attach a low)
  · rw [append_attach_high inside, Nat.add_comm]
    exact islandOf_append_high proper proper' connected (proper'.attach i inside)

/-- The vertices of the first mesh keep their places. -/
theorem localOf_append_low (proper : m.Proper) (proper' : p.Proper) (connected : p.Connected)
    {v : Nat} (low : v < m.nVerts) : localOf (append m p) v = localOf m v := by
  rw [localOf_eq (append_nVerts (p := p) ▸ Nat.lt_add_right _ low), localOf_eq low,
    islandOf_append_low proper proper' connected low]
  refine congrArg List.length (List.filter_congr fun u member => ?_)
  rw [islandOf_append_low proper proper' connected ((List.mem_range.1 member).trans low)]

/-- Those of the second mesh have their own. -/
theorem localOf_append_high (proper : m.Proper) (proper' : p.Proper) (connected : p.Connected)
    {i : Nat} (inside : i < p.nVerts) : localOf (append m p) (m.nVerts + i) = i := by
  have within : m.nVerts + i < (append m p).nVerts := by
    rw [append_nVerts]
    omega
  rw [localOf_eq within, islandOf_append_high proper proper' connected inside,
    Portions.bucket_range_add i (fun v low => islandOf_append_low proper proper' connected low)
      (fun v low => islandOf_lt proper low)
      (fun j before => islandOf_append_high proper proper' connected (before.trans inside)),
    if_pos rfl, List.length_map, List.length_range]

variable [Zero α]

/-- Lists read at the places of the first part. -/
theorem map_append_low {β : Type*} {share : List Nat} {n : Nat} {low rest : List β} (d : β)
    (length : low.length = n) (inside : ∀ i ∈ share, i < n) :
    (share.map fun i => (low ++ rest).getD i d) = share.map fun i => low.getD i d :=
  List.map_congr_left fun i member => List.getD_append _ _ _ _ (length ▸ inside i member)

/-- Lists read at the places of the second part. -/
theorem map_append_high {β : Type*} {n k : Nat} {low rest : List β} (d : β)
    (length : low.length = n) (length' : rest.length = k) :
    (((List.range k).map (n + ·)).map fun i => (low ++ rest).getD i d) = rest := by
  subst length length'
  rw [List.map_map]
  conv => rhs; rw [← map_getD_range rest d rfl]
  refine List.map_congr_left fun i _ => ?_
  rw [Function.comp_apply, List.getD_append_right _ _ _ _ (Nat.le_add_right _ _),
    Nat.add_sub_cancel_left]

/-- The islands of the first mesh are what they were. -/
theorem island_append_low (proper : m.Proper) (proper' : p.Proper) (connected : p.Connected)
    {k : Nat} (low : k < (islands m).next) : island (append m p) k = island m k := by
  have other : ¬ k = (islands m).next := by omega
  rw [island, islandVerts_append proper proper' connected,
    islandTris_append proper proper' connected, islandBends_append proper proper' connected,
    islandAttachs_append proper proper' connected, if_neg other, if_neg other, if_neg other,
    if_neg other]
  have verts : ∀ v ∈ islandVerts m k, v < m.nVerts := fun v member =>
    List.mem_range.1 (List.mem_filter.1 member).1
  have tris : ∀ t ∈ islandTris m k, t < m.nTri := fun t member =>
    List.mem_range.1 (List.mem_filter.1 member).1
  have bends : ∀ b ∈ islandBends m k, b < m.nBend := fun b member =>
    List.mem_range.1 (List.mem_filter.1 member).1
  have attachs : ∀ a ∈ islandAttachs m k, a < m.nAttach := fun a member =>
    List.mem_range.1 (List.mem_filter.1 member).1
  unfold island cut
  congr 1
  · exact map_append_low _ rfl verts
  · exact map_append_low _ proper.mass verts
  · refine List.map_congr_left fun t member => funext fun r => ?_
    rw [append_tri_low proper (tris t member),
      localOf_append_low proper proper' connected (proper.tri t (tris t member) r)]
  · exact map_append_low _ rfl tris
  · refine List.map_congr_left fun b member => funext fun r => ?_
    rw [append_bend_low proper (bends b member),
      localOf_append_low proper proper' connected (proper.bend b (bends b member) r)]
  · exact map_append_low _ proper.bendWeight bends
  · exact map_append_low _ rfl bends
  · refine List.map_congr_left fun a member => ?_
    rw [append_attach_low (attachs a member),
      localOf_append_low proper proper' connected (proper.attach a (attachs a member))]
  · exact map_append_low _ proper.attachFixed attachs

/-- The last island is the second mesh. -/
theorem island_append_last (proper : m.Proper) (proper' : p.Proper) (connected : p.Connected) :
    island (append m p) (islands m).next = p.physical := by
  rw [island, islandVerts_append proper proper' connected,
    islandTris_append proper proper' connected, islandBends_append proper proper' connected,
    islandAttachs_append proper proper' connected, if_pos rfl, if_pos rfl, if_pos rfl, if_pos rfl]
  unfold cut ClothMesh.physical
  congr 1
  · exact map_append_high _ rfl rfl
  · exact map_append_high _ proper.mass proper'.mass
  · conv => rhs; rw [← map_getD_range p.triIdx 0 proper'.triIdx]
    rw [List.map_map]
    refine List.map_congr_left fun t member => funext fun r => ?_
    have inside := List.mem_range.1 member
    rw [Function.comp_apply, append_tri_high proper proper' inside, shift, Nat.add_comm]
    exact localOf_append_high proper proper' connected (proper'.tri t inside r)
  · exact map_append_high _ rfl rfl
  · conv => rhs; rw [← map_getD_range p.bendIdx 0 proper'.bendIdx]
    rw [List.map_map]
    refine List.map_congr_left fun b member => funext fun r => ?_
    have inside := List.mem_range.1 member
    rw [Function.comp_apply, append_bend_high proper proper' inside, shift, Nat.add_comm]
    exact localOf_append_high proper proper' connected (proper'.bend b inside r)
  · exact map_append_high _ proper.bendWeight proper'.bendWeight
  · exact map_append_high _ rfl rfl
  · conv => rhs; rw [← map_getD_range p.attachVert 0 rfl]
    rw [List.map_map]
    refine List.map_congr_left fun a member => ?_
    have inside := List.mem_range.1 member
    rw [Function.comp_apply, append_attach_high inside, Nat.add_comm]
    exact localOf_append_high proper proper' connected (proper'.attach a inside)
  · exact map_append_high _ proper.attachFixed proper'.attachFixed

/-- The islands without their faces. -/
theorem map_physical_partitionIslands {mesh : ClothMesh α} (proper : mesh.Proper) :
    ((partitionIslands mesh).map fun part => part.physical) =
      (List.range (islands mesh).next).map (island mesh) := by
  rw [partitionIslands_eq proper, List.map_map]
  rfl

end Append

section Inverse

variable {α : Type*} [Zero α]

/-- The combination of parts, and its vertices. -/
theorem combineMeshes_snoc (parts : List (ClothMesh α)) (p : ClothMesh α) :
    combineMeshes (parts ++ [p]) = append (combineMeshes parts) p := by
  have count : ∀ parts : List (ClothMesh α),
      (parts.foldl combineStep (.empty, 0)).2 = (combineMeshes parts).nVerts := by
    intro parts
    induction parts using List.reverseRecOn with
    | nil => rfl
    | append_singleton parts p inductionHypothesis =>
      rw [combineMeshes, List.foldl_append, List.foldl_cons, List.foldl_nil]
      have more : ∀ state : ClothMesh α × Nat, state.2 = state.1.nVerts →
          (combineStep state p).2 = (combineStep state p).1.nVerts := by
        intro state same
        rw [combineStep, same]
        exact append_nVerts.symm
      exact more _ inductionHypothesis
  rw [combineMeshes, List.foldl_append, List.foldl_cons, List.foldl_nil, append, ← count parts]
  rfl

theorem proper_combineMeshes {parts : List (ClothMesh α)} (proper : ∀ p ∈ parts, p.Proper) :
    (combineMeshes parts).Proper := by
  induction parts using List.reverseRecOn with
  | nil =>
    exact ⟨rfl, rfl, rfl, rfl, rfl, fun t inside => absurd inside (Nat.not_lt_zero t),
      fun b inside => absurd inside (Nat.not_lt_zero b),
      fun a inside => absurd inside (Nat.not_lt_zero a)⟩
  | append_singleton parts p inductionHypothesis =>
    rw [combineMeshes_snoc]
    exact proper_append (inductionHypothesis fun q member => proper q (by simp [member]))
      (proper p (by simp))

/-- Combined meshes that are each connected come back, and every element of a mesh goes to one
island and names there what it named. -/
theorem partitionIslands_inverts :
    (∀ parts : List (ClothMesh α), (∀ p ∈ parts, p.Proper ∧ p.Connected) →
      ((partitionIslands (combineMeshes parts)).map fun part => part.physical) =
        parts.map fun part => part.physical) ∧
    ∀ mesh : ClothMesh α, mesh.Proper → ∃ vs ts bs as : Nat → List Nat,
      (∀ k (inside : k < (partitionIslands mesh).length),
        PartOf mesh (vs k) (ts k) (bs k) (as k) (partitionIslands mesh)[k]) ∧
      ((List.range (partitionIslands mesh).length).flatMap vs).Perm (List.range mesh.nVerts) ∧
      ((List.range (partitionIslands mesh).length).flatMap ts).Perm (List.range mesh.nTri) ∧
      ((List.range (partitionIslands mesh).length).flatMap bs).Perm (List.range mesh.nBend) ∧
      ((List.range (partitionIslands mesh).length).flatMap as).Perm (List.range mesh.nAttach) := by
  constructor
  · intro parts
    induction parts using List.reverseRecOn with
    | nil => exact fun _ => rfl
    | append_singleton parts p inductionHypothesis =>
      intro each
      have proper := proper_combineMeshes fun q member => (each q (List.mem_append_left _ member)).1
      obtain ⟨proper', connected⟩ := each p (by simp)
      have before := inductionHypothesis fun q member => each q (List.mem_append_left _ member)
      rw [map_physical_partitionIslands proper] at before
      rw [combineMeshes_snoc, map_physical_partitionIslands (proper_append proper proper'),
        (islands_append proper proper' connected).2, List.range_succ, List.map_append,
        List.map_append, List.map_singleton, List.map_singleton,
        island_append_last proper proper' connected, ← before]
      refine congrArg (· ++ [p.physical]) (List.map_congr_left fun k member => ?_)
      exact island_append_low proper proper' connected (List.mem_range.1 member)
  · intro mesh proper
    have eq := partitionIslands_eq proper
    have length : (partitionIslands mesh).length = (islands mesh).next := by
      rw [eq, List.length_map, List.length_range]
    refine ⟨islandVerts mesh, islandTris mesh, islandBends mesh, islandAttachs mesh, ?_, ?_⟩
    · intro k inside
      simp only [eq, List.getElem_map, List.getElem_range]
      exact partOf_island proper k
    · rw [length]
      refine ⟨perm_flatMap_bucket_of_lt _ fun v member => ?_,
        perm_flatMap_bucket_of_lt _ fun t member => ?_,
        perm_flatMap_bucket_of_lt _ fun b member => ?_,
        perm_flatMap_bucket_of_lt _ fun a member => ?_⟩
      · exact islandOf_lt proper (List.mem_range.1 member)
      · exact islandOf_lt proper (proper.tri t (List.mem_range.1 member) 0)
      · exact islandOf_lt proper (proper.bend b (List.mem_range.1 member) 0)
      · exact islandOf_lt proper (proper.attach a (List.mem_range.1 member))

/-- One triangle, hung at its first corner. -/
def oneTriangle : ClothMesh Int where
  nx := 0
  ny := 0
  width := 0
  height := 0
  positions := [![0, 0, 0], ![1, 0, 0], ![0, 1, 0]]
  mass := [1, 2, 3]
  triIdx := [![0, 1, 2]]
  triInvUV := [![1, 0, 0, 1]]
  bendIdx := []
  bendWeight := []
  bendNTarget := []
  attachVert := [0]
  attachFixed := [![0, 0, 0]]
  faces := [![0, 1, 2]]

/-- Two triangles that were combined. -/
theorem partitionIslands_inverts_two :
    ((partitionIslands (combineMeshes [oneTriangle, oneTriangle])).map fun part => part.physical) =
      [oneTriangle.physical, oneTriangle.physical] := by
  have proper : oneTriangle.Proper :=
    ⟨by decide, by decide, by decide, by decide, by decide, by decide, by decide, by decide⟩
  have fromFirst : ∀ v < 3, UnionFind.Connected oneTriangle.links 0 v := by
    intro v inside
    match v, inside with
    | 0, _ => exact .refl _
    | 1, _ => exact .rel _ _ (by decide)
    | 2, _ => exact .rel _ _ (by decide)
  have connected : oneTriangle.Connected :=
    ⟨by decide, fun u insideU v insideV =>
      .trans _ _ _ (.symm _ _ (fromFirst u insideU)) (fromFirst v insideV)⟩
  exact partitionIslands_inverts.1 [oneTriangle, oneTriangle] fun p member => by
    obtain rfl : p = oneTriangle := by simpa using member
    exact ⟨proper, connected⟩

end Inverse

end DressOn.Avbd.ClothGrid
