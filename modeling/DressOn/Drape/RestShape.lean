import DressOn.Drape.SceneArrays
import Mathlib.Analysis.Real.Sqrt

/-!
# When a mesh can be stepped

`scene_mesh` accepts sizes and ranges. The rest shape of what it accepts divides by the area of
every triangle, and the predictor by the mass of every vertex: these are numbers just where no
triangle has its corners on a line and every vertex is a corner of a triangle.
-/

namespace DressOn.Drape.DrapeScene

universe u

open DressOn.Avbd (Vec3)
open Checked
open Matrix

section Triangles

variable {α : Type*} [Field α] [LinearOrder α] [IsStrictOrderedRing α] (root : SquareRoot α)

/-- The corners of a triangle are not on a line. -/
def Spans (p0 p1 p2 : Vec3 α) : Prop := (p1 - p0) ⨯₃ (p2 - p0) ≠ 0

theorem spans_iff {p0 p1 p2 : Vec3 α} : Spans p0 p1 p2 ↔ 0 < Checked.gram (p1 - p0) (p2 - p0) :=
  gram_pos_iff.symm

theorem Spans.swap {p0 p1 p2 : Vec3 α} (spans : Spans p0 p1 p2) : Spans p0 p2 p1 := by
  rw [spans_iff] at spans ⊢
  rwa [gram_comm]

theorem Spans.turn {p0 p1 p2 : Vec3 α} (spans : Spans p0 p1 p2) : Spans p1 p2 p0 := by
  rw [spans_iff] at spans ⊢
  rwa [gram_turn]

/-- A triangle has a rest shape just where its corners are not on a line; its area is positive. -/
theorem triangleRest_spec (p0 p1 p2 : Vec3 α) :
    (Spans p0 p1 p2 → ∃ inverse area, triangleRest root p0 p1 p2 = some (inverse, area) ∧
      0 < area) ∧
    (¬ Spans p0 p1 p2 → triangleRest root p0 p1 p2 = none) := by
  obtain ⟨P0, one⟩ : ∃ P0, normalized root (p1 - p0) = some P0 := ⟨_, normalized_eq root _⟩
  obtain ⟨P1, two⟩ : ∃ P1, normalized root (p2 - p0 - ((p2 - p0) ⬝ᵥ P0) • P0) = some P1 :=
    ⟨_, normalized_eq root _⟩
  have square := det_sq root one two
  unfold triangleRest
  simp only [one, two, Option.bind_eq_bind, Option.bind_some]
  generalize det : P0 ⬝ᵥ (p1 - p0) * (P1 ⬝ᵥ (p2 - p0)) - P1 ⬝ᵥ (p1 - p0) * (P0 ⬝ᵥ (p2 - p0)) = d
    at square
  constructor
  · intro spans
    have nonzero : d ≠ 0 := by
      rintro rfl
      rw [spans_iff, ← square, mul_zero] at spans
      exact lt_irrefl _ spans
    rw [quotient_of_ne nonzero]
    exact ⟨_, _, rfl, abs_pos.2 (div_ne_zero nonzero two_ne_zero)⟩
  · intro flat
    have zero : d = 0 := by
      rw [Spans, not_not, ← gram_eq_zero_iff, ← square] at flat
      exact mul_self_eq_zero.1 flat
    rw [zero, quotient, if_pos rfl]
    rfl

/-- Heron's formula finds the area of a triangle. -/
theorem heron_spec {p q r : Vec3 α} (spans : Spans p q r) {a b c : α}
    (first : Checked.norm root (q - p) = some a) (second : Checked.norm root (r - p) = some b)
    (third : Checked.norm root (q - r) = some c) :
    ∃ area, root.of (1 / 2 * (a + b + c) * (1 / 2 * (a + b + c) - a) *
      (1 / 2 * (a + b + c) - b) * (1 / 2 * (a + b + c) - c)) = some area ∧ 0 < area := by
  rw [norm_eq] at first second third
  obtain rfl := Option.some.inj first
  obtain rfl := Option.some.inj second
  obtain rfl := Option.some.inj third
  have heron := heron_eq (sqrt_dot_sq root (q - p)) (sqrt_dot_sq root (r - p))
    (sqrt_dot_sq root (q - r))
  have positive : 0 < Checked.gram (q - p) (r - p) / 4 := div_pos (spans_iff.1 spans) four_pos
  rw [heron, root.of_nonneg positive.le]
  exact ⟨_, rfl, root.sqrt_pos positive⟩

/-- A stencil of two such triangles has a rest shape with a positive area. -/
theorem bendRest_spec {pos : Fin 4 → Vec3 α} (first : Spans (pos 0) (pos 1) (pos 2))
    (second : Spans (pos 0) (pos 1) (pos 3)) :
    ∃ w n areaSum, bendRest root pos = some (w, n, areaSum) ∧ 0 < areaSum := by
  obtain ⟨l01, is01⟩ : ∃ l, Checked.norm root (pos 1 - pos 0) = some l := ⟨_, norm_eq root _⟩
  obtain ⟨l02, is02⟩ : ∃ l, Checked.norm root (pos 2 - pos 0) = some l := ⟨_, norm_eq root _⟩
  obtain ⟨l03, is03⟩ : ∃ l, Checked.norm root (pos 3 - pos 0) = some l := ⟨_, norm_eq root _⟩
  obtain ⟨l12, is12⟩ : ∃ l, Checked.norm root (pos 1 - pos 2) = some l := ⟨_, norm_eq root _⟩
  obtain ⟨l13, is13⟩ : ∃ l, Checked.norm root (pos 1 - pos 3) = some l := ⟨_, norm_eq root _⟩
  obtain ⟨A0, isA0, A0pos⟩ := heron_spec root first is01 is02 is12
  obtain ⟨A1, isA1, A1pos⟩ := heron_spec root second is01 is03 is13
  have turned : 1 / 2 * (l01 + l13 + l03) * (1 / 2 * (l01 + l13 + l03) - l01) *
      (1 / 2 * (l01 + l13 + l03) - l03) * (1 / 2 * (l01 + l13 + l03) - l13) =
      1 / 2 * (l01 + l03 + l13) * (1 / 2 * (l01 + l03 + l13) - l01) *
      (1 / 2 * (l01 + l03 + l13) - l03) * (1 / 2 * (l01 + l03 + l13) - l13) := by ring
  have A0ne : 4 * A0 ≠ 0 := (mul_pos four_pos A0pos).ne'
  have A1ne : 4 * A1 ≠ 0 := (mul_pos four_pos A1pos).ne'
  unfold bendRest
  simp only [is01, is02, is03, is12, is13, turned, isA0, isA1, quotient_of_ne A0ne,
    quotient_of_ne A1ne, norm_eq, Option.bind_eq_bind, Option.bind_some]
  exact ⟨_, _, _, rfl, add_pos A0pos A1pos⟩

end Triangles

section Edges

/-- Two pairs of which neither is less are the same. -/
theorem eq_of_not_pairLess {one two : Nat × Nat} (notLess : ¬ pairLess one two = true)
    (notGreater : ¬ pairLess two one = true) : one = two := by
  simp only [pairLess, Bool.or_eq_true, Bool.and_eq_true, decide_eq_true_eq, not_or,
    not_and] at notLess notGreater
  refine Prod.ext ?_ ?_
  · omega
  · omega

/-- What a map of edges holds was put there. -/
theorem mem_pushBack {key : Nat × Nat} {opposite : Nat} {edges : List ((Nat × Nat) × List Nat)}
    {entry : (Nat × Nat) × List Nat} (member : entry ∈ pushBack key opposite edges) {corner : Nat}
    (held : corner ∈ entry.2) :
    (entry.1, corner) = (key, opposite) ∨ ∃ old ∈ edges, old.1 = entry.1 ∧ corner ∈ old.2 := by
  induction edges with
  | nil =>
    obtain rfl := List.mem_singleton.1 member
    exact .inl (by rw [List.mem_singleton.1 held])
  | cons first edges inductionHypothesis =>
    have kept : entry ∈ first :: edges →
        (entry.1, corner) = (key, opposite) ∨
          ∃ old ∈ first :: edges, old.1 = entry.1 ∧ corner ∈ old.2 :=
      fun old => .inr ⟨entry, old, rfl, held⟩
    unfold pushBack at member
    split at member
    · obtain rfl | member := List.mem_cons.1 member
      · exact .inl (by rw [List.mem_singleton.1 held])
      · exact kept member
    · next notLess =>
      split at member
      · obtain rfl | member := List.mem_cons.1 member
        · exact kept List.mem_cons_self
        · obtain new | ⟨old, there, same⟩ := inductionHypothesis member
          · exact .inl new
          · exact .inr ⟨old, List.mem_cons_of_mem _ there, same⟩
      · next notGreater =>
        obtain rfl | member := List.mem_cons.1 member
        · obtain old | new := List.mem_append.1 held
          · exact .inr ⟨first, List.mem_cons_self, rfl, old⟩
          · rw [List.mem_singleton.1 new, eq_of_not_pairLess notLess notGreater]
            exact .inl rfl
        · exact kept (List.mem_cons_of_mem _ member)

/-- The corners opposite an edge are corners opposite it in a triangle. -/
theorem mem_edgeMap {tri : List (Fin 3 → Nat)} {entry : (Nat × Nat) × List Nat}
    (member : entry ∈ edgeMap tri) {corner : Nat} (held : corner ∈ entry.2) :
    ∃ id ∈ tri, (entry.1, corner) ∈ triEdges id := by
  suffices ∀ (edges : List ((Nat × Nat) × Nat)) (entry : (Nat × Nat) × List Nat),
      entry ∈ edges.foldl (fun map e => pushBack e.1 e.2 map) [] → corner ∈ entry.2 →
        (entry.1, corner) ∈ edges from
    List.mem_flatMap.1 (this _ entry member held)
  intro edges
  induction edges using List.reverseRecOn with
  | nil => exact fun _ nothing => nomatch nothing
  | append_singleton edges edge inductionHypothesis =>
    intro entry later held
    rw [List.foldl_append] at later
    obtain new | ⟨old, there, same, before⟩ := mem_pushBack later held
    · exact List.mem_append_right _ (List.mem_singleton.2 new)
    · exact List.mem_append_left _ (same ▸ inductionHypothesis old there before)

/-- A stencil is made of two triangles of the mesh. -/
theorem spans_of_stencil {α : Type*} [Field α] [LinearOrder α] [IsStrictOrderedRing α]
    {p : Nat → Vec3 α} {tri : List (Fin 3 → Nat)}
    (spans : ∀ id ∈ tri, Spans (p (id 0)) (p (id 1)) (p (id 2))) {idx : Fin 4 → Nat}
    (member : idx ∈ (edgeMap tri).filterMap stencil) :
    Spans (p (idx 0)) (p (idx 1)) (p (idx 2)) ∧ Spans (p (idx 0)) (p (idx 1)) (p (idx 3)) := by
  have edge : ∀ {lo hi corner : Nat} {id : Fin 3 → Nat}, id ∈ tri →
      ((lo, hi), corner) ∈ triEdges id → Spans (p lo) (p hi) (p corner) := by
    intro lo hi corner id there inTriangle
    have base := spans id there
    have ordered : ∀ {a b c : Nat}, Spans (p a) (p b) (p c) →
        Spans (p (min a b)) (p (max a b)) (p c) := by
      intro a b c spans
      rcases Nat.le_total a b with le | le
      · rwa [Nat.min_eq_left le, Nat.max_eq_right le]
      · rw [Nat.min_eq_right le, Nat.max_eq_left le]
        exact spans.turn.swap
    simp only [triEdges, List.map_cons, List.map_nil, List.mem_cons, Prod.mk.injEq,
      List.not_mem_nil, or_false] at inTriangle
    obtain ⟨⟨rfl, rfl⟩, rfl⟩ | ⟨⟨rfl, rfl⟩, rfl⟩ | ⟨⟨rfl, rfl⟩, rfl⟩ := inTriangle
    · exact ordered base
    · exact ordered base.swap
    · exact ordered base.turn
  obtain ⟨⟨⟨lo, hi⟩, opposite⟩, there, made⟩ := List.mem_filterMap.1 member
  unfold stencil at made
  split at made
  · next first second rest same =>
    obtain rfl := Option.some.inj made
    dsimp only at same
    obtain ⟨id, inMesh, inTriangle⟩ := @mem_edgeMap _ _ there first (by simp [same])
    obtain ⟨id', inMesh', inTriangle'⟩ := @mem_edgeMap _ _ there second (by simp [same])
    exact ⟨edge inMesh inTriangle, edge inMesh' inTriangle'⟩
  · exact nomatch made

end Edges

section Areas

variable {α : Type*} [Field α]

/-- A cell to which amounts are added holds what it held and the amounts. -/
theorem getD_foldl_modify (corners : List (Nat × α)) (areas : List α) {i : Nat}
    (inside : i < areas.length) :
    (corners.foldl (fun areas corner => areas.modify corner.1 (· + corner.2)) areas).getD i 0 =
      areas.getD i 0 + ((corners.filter fun corner => corner.1 = i).map Prod.snd).sum := by
  induction corners generalizing areas with
  | nil => simp
  | cons corner corners inductionHypothesis =>
    rw [List.foldl_cons, inductionHypothesis _ (by simpa using inside)]
    by_cases here : corner.1 = i
    · subst here
      simp [List.getD_eq_getElem?_getD, inside, add_assoc]
    · simp [List.getD_eq_getElem?_getD, here]

variable [LinearOrder α] [IsStrictOrderedRing α]

/-- A vertex has an area just where it is a corner of a triangle. -/
theorem areaMatrix_ne_zero_iff {nV : Nat} {tri : List (Fin 3 → Nat)} {triArea : List α}
    (length : triArea.length = tri.length) (positive : ∀ area ∈ triArea, 0 < area) {i : Nat}
    (inside : i < nV) :
    (areaMatrix nV tri triArea).getD i 0 ≠ 0 ↔ ∃ id ∈ tri, ∃ r, id r = i := by
  unfold areaMatrix
  rw [getD_foldl_modify _ _ (by simpa using inside)]
  generalize corners : ((tri.zip triArea).flatMap fun e =>
    (List.finRange 3).map fun r => (e.1 r, e.2 / 3)) = all
  have members : ∀ {corner : Nat × α}, corner ∈ all ↔
      ∃ e ∈ tri.zip triArea, ∃ r, (e.1 r, e.2 / 3) = corner := by
    intro corner
    rw [← corners]
    simp
  have zero : (List.replicate nV (0 : α)).getD i 0 = 0 := by
    simp [List.getD_eq_getElem?_getD, inside]
  rw [zero, zero_add]
  constructor
  · intro nonzero
    by_contra none
    have empty : all.filter (fun corner => corner.1 = i) = [] := by
      refine List.filter_eq_nil_iff.2 fun corner member here => none ?_
      obtain ⟨e, zipped, r, rfl⟩ := members.1 member
      exact ⟨e.1, (List.of_mem_zip zipped).1, r, of_decide_eq_true here⟩
    rw [empty] at nonzero
    exact nonzero rfl
  · rintro ⟨id, member, r, here⟩
    obtain ⟨t, bound, rfl⟩ := List.getElem_of_mem member
    have zipped : (tri[t], triArea[t]) ∈ tri.zip triArea := by
      rw [List.mem_iff_getElem]
      exact ⟨t, by simpa [length] using bound, by simp⟩
    refine (List.sum_pos _ ?_ ?_).ne'
    · intro share shared
      obtain ⟨corner, kept, rfl⟩ := List.mem_map.1 shared
      obtain ⟨e, zipped, r, rfl⟩ := members.1 (List.mem_of_mem_filter kept)
      exact div_pos (positive _ (List.of_mem_zip zipped).2) three_pos
    · have kept : (i, triArea[t] / 3) ∈ all.filter fun corner => corner.1 = i :=
        List.mem_filter.2 ⟨members.2 ⟨_, zipped, r, Prod.ext here rfl⟩, decide_eq_true rfl⟩
      intro nothing
      rw [List.map_eq_nil_iff] at nothing
      rw [nothing] at kept
      exact nomatch kept

end Areas

section Passes

variable {σ α : Type u} [Field α] [LinearOrder α]

/-- The predictor divides by the masses alone. -/
theorem predict_isSome (geometry : Geometry σ α) (s : DrapeScene σ α) (cfg : Config α)
    (x v : Nat → Vec3 α) :
    (s.predict geometry cfg x v).isSome ↔ ∀ i < s.nV, s.massD.getD i 0 ≠ 0 := by
  have rows : ((List.range s.nV).mapM fun i =>
      predictVertex cfg (s.massD.getD i 0) (x i) (v i)).isSome ↔
      ∀ i < s.nV, s.massD.getD i 0 ≠ 0 := by
    rw [mapM_isSome]
    simp only [List.mem_range]
    refine forall₂_congr fun i _ => ?_
    rw [← quotient_isSome (a := 1)]
    unfold predictVertex
    cases quotient 1 (s.massD.getD i 0) <;> simp
  rw [← rows]
  unfold predict
  cases (List.range s.nV).mapM fun i => predictVertex cfg (s.massD.getD i 0) (x i) (v i) <;> simp

variable (root : SquareRoot α)

/-- What is accepted is finished. -/
theorem finished_of_accepted {prims : List (Primitive σ α)} {pos : List α} {tris pins : List Int}
    {mesh : Option (DrapeScene σ α)} (accepted : sceneMesh root prims pos tris pins = .ok mesh) :
    mesh = (sceneFinish root (unfinished prims pos tris)).map fun s =>
      s.pushAttachments (pins.map Int.toNat) := by
  unfold sceneMesh at accepted
  split_ifs at accepted
  exact (Except.ok.inj accepted).symm

variable [IsStrictOrderedRing α]

/-- The shortest edge at a vertex is a number, whatever the triangles there. -/
theorem exists_radius (p : Nat → Vec3 α) (tri : List (Fin 3 → Nat)) (i : Nat) :
    ∃ length, radius root p tri i = some length := by
  unfold radius
  simp only [norm_eq, Option.bind_eq_bind, Option.bind_some, Option.pure_def]
  obtain ⟨minEdge, found⟩ := @exists_foldlM (Fin 3 → Nat) α _ (fun minEdge id => ⟨_, rfl⟩)
    (incident tri i) 100
  rw [found]
  exact ⟨_, rfl⟩

/-- What `scene_finish` has measured. -/
structure Measured (s : DrapeScene σ α) : Prop where
  nTri : s.triArea.length = s.tri.length
  areas : ∀ area ∈ s.triArea, 0 < area
  areaSums : ∀ areaSum ∈ s.bendAreaSum, 0 < areaSum
  vertArea : s.vertArea = areaMatrix s.nV s.tri s.triArea

/-- The triangles of a scene have their corners apart. -/
def AllSpan (s : DrapeScene σ α) : Prop :=
  ∀ id ∈ s.tri, Spans (s.restd (id 0)) (s.restd (id 1)) (s.restd (id 2))

/-- A scene without degenerate triangles is finished. -/
theorem sceneFinish_of_allSpan {s : DrapeScene σ α} (spans : s.AllSpan) :
    ∃ finished, sceneFinish root s = some finished ∧ finished.Measured ∧
      finished.nV = s.nV ∧ finished.tri = s.tri := by
  obtain ⟨triangles, measured⟩ := exists_mapM fun id member => by
    obtain ⟨inverse, area, rest, -⟩ := (triangleRest_spec root _ _ _).1 (spans id member)
    exact ⟨_, rest⟩
  obtain ⟨bends, bent⟩ := exists_mapM fun idx member => by
    obtain ⟨first, second⟩ := spans_of_stencil spans member
    obtain ⟨w, n, areaSum, rest, -⟩ := @bendRest_spec _ _ _ _ root (fun i => s.restd (idx i))
      first second
    exact ⟨_, rest⟩
  obtain ⟨radii, found⟩ := exists_mapM fun i (_ : i ∈ List.range s.nV) =>
    exists_radius root s.restd s.tri i
  unfold sceneFinish
  rw [measured]
  simp only [Option.bind_eq_bind, Option.bind_some, bent, found]
  refine ⟨_, rfl, ⟨?_, ?_, ?_, rfl⟩, rfl, rfl⟩
  · rw [List.length_map]
    exact (forall₂_of_mapM measured).length_eq.symm
  · refine List.forall_mem_map.2 (forall_of_mapM measured fun id member measure rest => ?_)
    obtain ⟨inverse, area, same, positive⟩ := (triangleRest_spec root _ _ _).1 (spans id member)
    rw [same] at rest
    exact Option.some.inj rest ▸ positive
  · refine List.forall_mem_map.2 (forall_of_mapM bent fun idx member measure rest => ?_)
    obtain ⟨first, second⟩ := spans_of_stencil spans member
    obtain ⟨w, n, areaSum, same, positive⟩ := @bendRest_spec _ _ _ _ root
      (fun i => s.restd (idx i)) first second
    rw [same] at rest
    exact Option.some.inj rest ▸ positive

/-- A scene with a degenerate triangle is not. -/
theorem sceneFinish_of_not_allSpan {s : DrapeScene σ α} (flat : ¬ s.AllSpan) :
    sceneFinish root s = none := by
  unfold AllSpan at flat
  simp only [not_forall] at flat
  obtain ⟨id, member, degenerate⟩ := flat
  unfold sceneFinish
  rw [mapM_eq_none member ((triangleRest_spec root _ _ _).2 degenerate)]
  rfl

/-- A measured scene takes any material. -/
theorem applyMaterial_of_measured {s : DrapeScene σ α} (measured : s.Measured) {cfg : Upload α}
    (kTri : 0 < cfg.kTri) (kBend : 0 < cfg.kBend) :
    ∃ out, s.applyMaterial root cfg = some out ∧ out.nV = s.nV ∧
      out.massD = (List.range s.nV).map fun i => s.vertArea.getD i 0 * cfg.density := by
  unfold applyMaterial
  obtain ⟨triK, first⟩ := exists_mapM (f := fun area => do
      let c ← root.of (area * cfg.kTri)
      return if cfg.rawStiffness then cfg.kTri else c * c) fun area member => by
    rw [root.of_nonneg (mul_pos (measured.areas area member) kTri).le]
    exact ⟨_, rfl⟩
  obtain ⟨bendK, second⟩ := exists_mapM (f := fun areaSum => do
      let c ← root.of (← quotient (cfg.kBend * 3) areaSum)
      return if cfg.rawStiffness then cfg.kBend else c * c) fun areaSum member => by
    have positive := measured.areaSums areaSum member
    rw [quotient_of_ne positive.ne']
    simp only [Option.bind_eq_bind, Option.bind_some]
    rw [root.of_nonneg (div_pos (mul_pos kBend three_pos) positive).le]
    exact ⟨_, rfl⟩
  rw [first, second]
  exact ⟨_, rfl, rfl, rfl⟩

/-- The material and the predictor of a mesh that was accepted. -/
def firstStep (geometry : Geometry σ α) (cfg : Config α) (x v : Nat → Vec3 α)
    (mesh : Option (DrapeScene σ α)) : Option (List (Vec3 α) × List (Vec3 α)) :=
  mesh.bind fun s =>
    (s.applyMaterial root cfg.toUpload).bind fun s => s.predict geometry cfg x v

/-- Finishing, the material and the predictor give numbers just where no triangle is degenerate and
every vertex is a corner of a triangle. -/
theorem firstStep_isSome_iff (s : DrapeScene σ α) (geometry : Geometry σ α) {cfg : Config α}
    (density : 0 < cfg.density) (kTri : 0 < cfg.kTri) (kBend : 0 < cfg.kBend)
    (verts : List Nat) (x v : Nat → Vec3 α) :
    (firstStep root geometry cfg x v
        ((sceneFinish root s).map fun s => s.pushAttachments verts)).isSome ↔
      s.AllSpan ∧ ∀ i < s.nV, ∃ id ∈ s.tri, ∃ r, id r = i := by
  unfold firstStep
  by_cases spans : s.AllSpan
  · obtain ⟨finished, eq, measured, nV, tri⟩ := sceneFinish_of_allSpan root spans
    have pinned : (finished.pushAttachments verts).Measured := ⟨measured.nTri, measured.areas,
      measured.areaSums, measured.vertArea⟩
    obtain ⟨out, applied, sameV, massD⟩ := applyMaterial_of_measured root pinned kTri kBend
    rw [eq, Option.map_some, Option.bind_some, applied, Option.bind_some, predict_isSome]
    simp only [spans, true_and]
    have count : out.nV = s.nV := sameV.trans nV
    rw [count]
    refine forall₂_congr fun i inside => ?_
    have inside' : i < finished.nV := nV ▸ inside
    rw [← tri, ← areaMatrix_ne_zero_iff measured.nTri measured.areas inside', ← measured.vertArea,
      massD]
    have mass : ((List.range finished.nV).map fun i =>
        finished.vertArea.getD i 0 * cfg.density).getD i 0 =
        finished.vertArea.getD i 0 * cfg.density := by
      simp [List.getD_eq_getElem?_getD, inside']
    refine (not_congr ?_)
    refine (Eq.congr_left mass).trans ?_
    rw [mul_eq_zero, or_iff_left density.ne']
  · rw [sceneFinish_of_not_allSpan root spans]
    simp [spans]

/-- An accepted mesh can be stepped just where every triangle has its corners apart and every
vertex is a corner of a triangle. -/
theorem sceneMesh_steps_iff {prims : List (Primitive σ α)} {pos : List α} {tris pins : List Int}
    {mesh : Option (DrapeScene σ α)} (accepted : sceneMesh root prims pos tris pins = .ok mesh)
    (geometry : Geometry σ α) {cfg : Config α} (density : 0 < cfg.density) (kTri : 0 < cfg.kTri)
    (kBend : 0 < cfg.kBend) (x v : Nat → Vec3 α) :
    (firstStep root geometry cfg x v mesh).isSome ↔
      (∀ id ∈ triples tris, Spans (at3 pos (id 0)) (at3 pos (id 1)) (at3 pos (id 2))) ∧
      ∀ i < pos.length / 3, ∃ id ∈ triples tris, ∃ r, id r = i := by
  rw [finished_of_accepted root accepted]
  exact firstStep_isSome_iff root _ geometry density kTri kBend _ x v

end Passes

section Reals

/-- The square root of the reals. -/
noncomputable def realRoot : SquareRoot ℝ where
  sqrt := Real.sqrt
  nonneg x _ := Real.sqrt_nonneg x
  square _ nonneg := Real.mul_self_sqrt nonneg

/-- No primitive is near. -/
noncomputable def untouched : Geometry Unit ℝ where
  sqrt := realRoot.sqrt
  isInContact _ _ _ := none
  projectionJacobianT _ _ g := g
  isMesh _ := false
  meshFitTarget _ _ _ := none
  similarityFit _ _ _ _ := none
  sceneFinish _ _ _ := ⟨fun _ _ => 0, fun _ => 0, fun _ => 0, fun _ _ => 0, fun _ => 0,
    fun _ => 0, fun _ => 0⟩
  bendIdx _ := []

/-- The defaults of `DrapeConfig`. -/
noncomputable def defaults : Config ℝ where
  h := 1 / 180
  density := 3 / 10
  kTri := 150
  kBend := 1 / 100000
  kAttach := 10000
  rawStiffness := false
  membrane := true
  bending := true
  colors := true
  selfK := 16
  alGamma := none
  iters := 16
  damp := 1
  al := false
  contact := true
  frictionPred := true
  selfCollision := true
  selfPasses := 2
  bwdTruncateK := 20
  gradientClipping := true
  gradientClippingThreshold := 16
  nativeMuDoubleCarry := true
  gravity := ![0, -98 / 10, 0]
  wind := 0
  mu := 3 / 10
  one_le_iters := by decide
  one_le_selfPasses := by decide

theorem defaults_positive :
    0 < defaults.density ∧ 0 < defaults.kTri ∧ 0 < defaults.kBend ∧ 0 < defaults.kAttach := by
  norm_num [defaults]

/-- The triangles of the list of one triangle. -/
theorem triples_one : triples [0, 1, 2] = [![0, 1, 2]] := by
  decide

/-- The triangles of a square. -/
theorem triples_square : triples [0, 1, 2, 0, 2, 3] = [![0, 1, 2], ![0, 2, 3]] := by
  decide

/-- A square of two triangles with a bending over their common edge, one of its corners pinned, can
be stepped. -/
theorem sceneMesh_steps_iff_square :
    ∃ scene : DrapeScene Unit ℝ, sceneMesh realRoot [] [0, 0, 0, 1, 0, 0, 1, 1, 0, 0, 1, 0]
        [0, 1, 2, 0, 2, 3] [0] = .ok (some scene) ∧
      scene.bendIdx = [![0, 2, 1, 3]] ∧
      (firstStep realRoot untouched defaults (fun _ => 0) (fun _ => 0) (some scene)).isSome := by
  obtain ⟨density, kTri, kBend, -⟩ := defaults_positive
  have stepped := (@sceneMesh_steps_iff _ _ _ _ realRoot _ []
    [0, 0, 0, 1, 0, 0, 1, 1, 0, 0, 1, 0] [0, 1, 2, 0, 2, 3] [0] _ rfl untouched _ density kTri kBend
    (fun _ => 0) fun _ => 0).2 (by
      rw [triples_square]
      constructor
      · intro id member
        have sides : id = ![0, 1, 2] ∨ id = ![0, 2, 3] := by simpa using member
        rintro flat
        have normal := congrFun flat 2
        rcases sides with rfl | rfl <;> simp [at3, cross_apply] at normal
      · decide)
  cases finished : sceneFinish realRoot (unfinished ([] : List (Primitive Unit ℝ))
      [0, 0, 0, 1, 0, 0, 1, 1, 0, 0, 1, 0] [0, 1, 2, 0, 2, 3]) with
  | none =>
    rw [finished] at stepped
    cases stepped
  | some out =>
    rw [finished] at stepped
    refine ⟨out.pushAttachments [0], ?_, ?_, stepped⟩
    · show Except.ok (Option.map _ (sceneFinish _ _)) = _
      rw [finished]
      rfl
    · simp only [sceneFinish, Option.bind_eq_bind, Option.bind_eq_some_iff] at finished
      obtain ⟨_, -, _, -, _, -, same⟩ := finished
      cases same
      show (edgeMap (triples [0, 1, 2, 0, 2, 3])).filterMap stencil = _
      decide

/-- A vertex without a triangle has no mass. -/
theorem isolated_vertex_unstepped :
    ¬ ∀ (pos : List ℝ) (tris pins : List Int) (mesh : Option (DrapeScene Unit ℝ)),
      sceneMesh realRoot [] pos tris pins = .ok mesh →
      ∀ cfg : Config ℝ, 0 < cfg.density → 0 < cfg.kTri → 0 < cfg.kBend → 0 < cfg.kAttach →
      ∀ x v, (firstStep realRoot untouched cfg x v mesh).isSome := by
  intro steps
  obtain ⟨density, kTri, kBend, kAttach⟩ := defaults_positive
  have stepped := steps [0, 0, 0, 1, 0, 0, 0, 1, 0, 0, 0, 1] [0, 1, 2] [] _ rfl defaults density
    kTri kBend kAttach (fun _ => 0) fun _ => 0
  have covered := ((firstStep_isSome_iff realRoot _ untouched density kTri kBend _ _ _).1 stepped).2
  obtain ⟨id, member, r, isolated⟩ := covered 3 (by decide)
  have member : id ∈ triples [0, 1, 2] := member
  rw [triples_one] at member
  obtain rfl := List.mem_singleton.1 member
  revert r
  decide

end Reals

end DressOn.Drape.DrapeScene
