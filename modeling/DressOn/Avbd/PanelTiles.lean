import DressOn.Avbd.ClothGrid
import Mathlib

/-!
# Tiles of a panel

`split_connected_panel`: every vertex is owned by the tile of its band, and a tile also holds the
ghosts that the constraints of its own vertices pull in. The bands may come from any arithmetic.
-/

namespace DressOn.Avbd.ClothGrid

/-- `PanelTile`. -/
structure PanelTile (α : Type*) where
  mesh : ClothMesh α
  nOwned : Nat
  globalId : List Nat

section Touching

variable (tileOf : Nat → Nat)

/-- `owned`, `ghost` and `seen`. -/
structure Touched where
  owned : Nat → List Nat
  ghost : Nat → List Nat
  seen : Nat → Nat → Bool

/-- Nothing touched. -/
def Touched.start : Touched := ⟨fun _ => [], fun _ => [], fun _ _ => false⟩

/-- `touch`. -/
def touch (s : Touched) (t v : Nat) : Touched :=
  if s.seen t v then s
  else
    let seen := Function.update s.seen t (Function.update (s.seen t) v true)
    if tileOf v = t then ⟨Function.update s.owned t (s.owned t ++ [v]), s.ghost, seen⟩
    else ⟨s.owned, Function.update s.ghost t (s.ghost t ++ [v]), seen⟩

/-- `bands`. -/
def bandsOf (ids : List Nat) : List Nat :=
  ids.foldl (fun bands v => if tileOf v ∈ bands then bands else bands ++ [tileOf v]) []

/-- `touchConstraint`. -/
def touchConstraint (s : Touched) (ids : List Nat) : Touched :=
  (bandsOf tileOf ids).foldl (fun s t => ids.foldl (fun s v => touch tileOf s t v) s) s

/-- `inTile`. -/
def inTile (t : Nat) (ids : List Nat) : Bool := ids.any fun v => tileOf v == t

end Touching

section Split

variable {α : Type*} [Zero α] (tileOf : Nat → Nat) (mesh : ClothMesh α)

/-- The vertices of a triangle, in order. -/
def triIds (t : Nat) : List Nat := List.ofFn (mesh.tri t)

/-- The vertices of a bending, in order. -/
def bendIds (b : Nat) : List Nat := List.ofFn (mesh.bend b)

/-- The three loops that touch. -/
def touchAll : Touched :=
  let s := (List.range mesh.nVerts).foldl (fun s v => touch tileOf s (tileOf v) v) .start
  let s := (List.range mesh.nTri).foldl (fun s t => touchConstraint tileOf s (triIds mesh t)) s
  (List.range mesh.nBend).foldl (fun s b => touchConstraint tileOf s (bendIds mesh b)) s

/-- `add`: `uint32_t(localOf)` and the tile's mesh. -/
def addVertex (state : (Nat → Nat) × PanelTile α) (g : Nat) : (Nat → Nat) × PanelTile α :=
  (Function.update state.1 g state.2.globalId.length,
    { state.2 with
      globalId := state.2.globalId ++ [g]
      mesh := pushVertex mesh g state.2.mesh })

/-- One turn of the loop over the tiles. -/
def makeTile (s : Touched) (t : Nat) : PanelTile α :=
  let start : (Nat → Nat) × PanelTile α :=
    (fun _ => 0xFFFFFFFF, ⟨.empty, (s.owned t).length, []⟩)
  let (localOf, pt) := (s.ghost t).foldl (addVertex mesh) ((s.owned t).foldl (addVertex mesh) start)
  let im := (List.range mesh.nTri).foldl (fun im ti =>
    if inTile tileOf t (triIds mesh ti) then pushTri mesh localOf ti im else im) pt.mesh
  let im := (List.range mesh.nBend).foldl (fun im b =>
    if inTile tileOf t (bendIds mesh b) then pushBend mesh localOf b im else im) im
  let im := (List.range mesh.nAttach).foldl (fun im a =>
    if tileOf (mesh.attach a) ≠ t then im else pushAttach mesh localOf a im) im
  { pt with mesh := { im with faces := im.triIdx } }

end Split

section Panel

variable {α : Type*} [Zero α] [One α] [Sub α] [Div α] [Mul α] [NatCast α] [LT α] [DecidableLT α]
  (trunc : α → Nat) (mesh : ClothMesh α) (nTiles : Nat)

/-- The first coordinate of a vertex. -/
def xOf (v : Nat) : α := mesh.positions.getD v 0 0

/-- `xmin`. -/
def xmin : α :=
  (List.range mesh.nVerts).foldl (fun xmin v => if xOf mesh v < xmin then xOf mesh v else xmin)
    (xOf mesh 0)

/-- `xmax`. -/
def xmax : α :=
  (List.range mesh.nVerts).foldl (fun xmax v => if xmax < xOf mesh v then xOf mesh v else xmax)
    (xOf mesh 0)

/-- `tileOf`; `trunc` is the conversion of a float to `uint32_t`. -/
def tileOf (v : Nat) : Nat :=
  let span := if xmin mesh < xmax mesh then xmax mesh - xmin mesh else 1
  let f := (xOf mesh v - xmin mesh) / span * (nTiles : α)
  let t := trunc f
  if nTiles ≤ t then nTiles - 1 else t

/-- `split_connected_panel`. -/
def splitConnectedPanel : List (PanelTile α) :=
  let tileOf := tileOf trunc mesh nTiles
  let s := touchAll tileOf mesh
  (List.range nTiles).map (makeTile tileOf mesh s)

end Panel

section Ownership

variable {tileOf : Nat → Nat}

/-- A touch keeps what is seen and sees its vertex. -/
theorem seen_touch (s : Touched) (t v t' v' : Nat) :
    (touch tileOf s t v).seen t' v' = true ↔ s.seen t' v' = true ∨ (t' = t ∧ v' = v) := by
  unfold touch
  split
  · next seen =>
    constructor
    · exact .inl
    · rintro (before | ⟨rfl, rfl⟩)
      · exact before
      · exact seen
  · have changed : Function.update s.seen t (Function.update (s.seen t) v true) t' v' = true ↔
        s.seen t' v' = true ∨ (t' = t ∧ v' = v) := by
      by_cases sameTile : t' = t
      · subst sameTile
        by_cases sameVertex : v' = v
        · simp [sameVertex]
        · simp [sameVertex]
      · simp [sameTile]
    dsimp only
    split <;> exact changed

/-- The vertices of a tile: its own and its ghosts. -/
def Touched.held (s : Touched) (t : Nat) : List Nat := s.owned t ++ s.ghost t

/-- A touch of a new vertex puts it in its tile. -/
theorem held_touch {s : Touched} {t v : Nat} (fresh : ¬ s.seen t v = true) (t' : Nat) :
    ((touch tileOf s t v).held t').Perm (if t' = t then v :: s.held t else s.held t') := by
  unfold touch Touched.held
  rw [if_neg fresh]
  dsimp only
  by_cases same : t' = t
  · subst same
    rw [if_pos rfl]
    split
    · dsimp only
      rw [Function.update_self, List.append_assoc, List.singleton_append]
      exact List.perm_middle
    · dsimp only
      rw [Function.update_self, ← List.append_assoc]
      exact List.perm_append_singleton v _
  · rw [if_neg same]
    split
    · dsimp only
      rw [Function.update_of_ne same]
    · dsimp only
      rw [Function.update_of_ne same]

/-- Who is owned after a touch. -/
theorem mem_owned_touch {s : Touched} {t v t' v' : Nat}
    (member : v' ∈ (touch tileOf s t v).owned t') : v' ∈ s.owned t' ∨ tileOf v' = t' := by
  unfold touch at member
  split at member
  · exact .inl member
  dsimp only at member
  split at member
  · next own =>
    dsimp only at member
    by_cases same : t' = t
    · subst same
      rw [Function.update_self] at member
      obtain before | last := List.mem_append.1 member
      · exact .inl before
      · exact .inr (List.mem_singleton.1 last ▸ own)
    · rw [Function.update_of_ne same] at member
      exact .inl member
  · exact .inl member

/-- Who is a ghost after a touch. -/
theorem mem_ghost_touch {s : Touched} {t v t' v' : Nat}
    (member : v' ∈ (touch tileOf s t v).ghost t') : v' ∈ s.ghost t' ∨ tileOf v' ≠ t' := by
  unfold touch at member
  split at member
  · exact .inl member
  dsimp only at member
  split at member
  · exact .inl member
  · next other =>
    dsimp only at member
    by_cases same : t' = t
    · subst same
      rw [Function.update_self] at member
      obtain before | last := List.mem_append.1 member
      · exact .inl before
      · exact .inr (List.mem_singleton.1 last ▸ other)
    · rw [Function.update_of_ne same] at member
      exact .inl member

/-- The tiles hold what was seen, each vertex once, with the owned ones apart. -/
structure Touched.Sound (tileOf : Nat → Nat) (nV : Nat) (s : Touched) : Prop where
  seen : ∀ t v, s.seen t v = true ↔ v ∈ s.held t
  nodup : ∀ t, (s.held t).Nodup
  owned : ∀ t, ∀ v ∈ s.owned t, tileOf v = t
  ghost : ∀ t, ∀ v ∈ s.ghost t, tileOf v ≠ t
  inside : ∀ t, ∀ v ∈ s.held t, v < nV

/-- A touch keeps the tiles sound. -/
theorem Touched.Sound.touch {nV : Nat} {s : Touched} (sound : s.Sound tileOf nV) (t : Nat) {v : Nat}
    (inside : v < nV) : (ClothGrid.touch tileOf s t v).Sound tileOf nV := by
  by_cases seen : s.seen t v = true
  · rw [ClothGrid.touch, if_pos seen]
    exact sound
  have fresh : v ∉ s.held t := fun member => seen ((sound.seen t v).2 member)
  have perm := @held_touch tileOf s t v seen
  refine ⟨fun t' v' => ?_, fun t' => ?_, fun t' v' member => ?_, fun t' v' member => ?_,
    fun t' v' member => ?_⟩
  · rw [seen_touch, sound.seen, (perm t').mem_iff]
    split
    · next same =>
      subst same
      rw [List.mem_cons]
      tauto
    · next other => simp [other]
  · rw [(perm t').nodup_iff]
    split
    · exact List.nodup_cons.2 ⟨fresh, sound.nodup t⟩
    · exact sound.nodup t'
  · exact (mem_owned_touch member).elim (sound.owned t' v') id
  · exact (mem_ghost_touch member).elim (sound.ghost t' v') id
  · rw [(perm t').mem_iff] at member
    split at member
    · obtain rfl | before := List.mem_cons.1 member
      · exact inside
      · exact sound.inside t v' before
    · exact sound.inside t' v' member

/-- What a fold of touches keeps: sound tiles, and everything that was seen. -/
structure Grows (tileOf : Nat → Nat) (nV : Nat) (s s' : Touched) : Prop where
  sound : s.Sound tileOf nV → s'.Sound tileOf nV
  seen : ∀ t v, s.seen t v = true → s'.seen t v = true

theorem Grows.refl (nV : Nat) (s : Touched) : Grows tileOf nV s s := ⟨id, fun _ _ => id⟩

theorem Grows.trans {nV : Nat} {s s' s'' : Touched} (first : Grows tileOf nV s s')
    (second : Grows tileOf nV s' s'') : Grows tileOf nV s s'' :=
  ⟨second.sound ∘ first.sound, fun t v before => second.seen t v (first.seen t v before)⟩

/-- Steps that grow the tiles do so one after the other, and what one of them sees stays seen. -/
theorem grows_foldl {ι : Type*} {nV : Nat} {step : Touched → ι → Touched} {items : List ι}
    (grows : ∀ item ∈ items, ∀ s, Grows tileOf nV s (step s item)) (s : Touched) :
    Grows tileOf nV s (items.foldl step s) ∧
      ∀ item ∈ items, ∀ t v, (∀ s, (step s item).seen t v = true) →
        (items.foldl step s).seen t v = true := by
  induction items generalizing s with
  | nil => exact ⟨.refl nV s, fun item member => absurd member List.not_mem_nil⟩
  | cons first items inductionHypothesis =>
    have later := inductionHypothesis (fun item member => grows item (by simp [member]))
      (step s first)
    refine ⟨(grows first (by simp) s).trans later.1, fun item member t v sees => ?_⟩
    obtain rfl | member := List.mem_cons.1 member
    · exact later.1.seen t v (sees s)
    · exact later.2 item member t v sees

theorem grows_touch {nV : Nat} (s : Touched) (t : Nat) {v : Nat} (inside : v < nV) :
    Grows tileOf nV s (touch tileOf s t v) :=
  ⟨fun sound => sound.touch t inside, fun t' v' before => (seen_touch s t v t' v').2 (.inl before)⟩

/-- The bands of a constraint are those of its vertices. -/
theorem mem_bandsOf (ids : List Nat) (t : Nat) :
    t ∈ bandsOf tileOf ids ↔ ∃ v ∈ ids, tileOf v = t := by
  induction ids using List.reverseRecOn with
  | nil => simp [bandsOf]
  | append_singleton ids v inductionHypothesis =>
    rw [bandsOf, List.foldl_append, List.foldl_cons, List.foldl_nil]
    change t ∈ (if tileOf v ∈ bandsOf tileOf ids then bandsOf tileOf ids
      else bandsOf tileOf ids ++ [tileOf v]) ↔ _
    have split : (∃ u ∈ ids ++ [v], tileOf u = t) ↔ t ∈ bandsOf tileOf ids ∨ tileOf v = t := by
      rw [inductionHypothesis]
      simp only [List.mem_append, List.mem_singleton, or_and_right, exists_or, exists_eq_left]
    rw [split]
    split
    · next known =>
      constructor
      · exact .inl
      · rintro (before | rfl)
        · exact before
        · exact known
    · simp [eq_comm]

/-- A constraint is seen, with all its vertices, by the tile of each of them. -/
theorem touchConstraint_spec {nV : Nat} (s : Touched) {ids : List Nat}
    (inside : ∀ v ∈ ids, v < nV) : Grows tileOf nV s (touchConstraint tileOf s ids) ∧
      ∀ u ∈ ids, ∀ v ∈ ids, (touchConstraint tileOf s ids).seen (tileOf u) v = true := by
  have band : ∀ t, ∀ s, Grows tileOf nV s (ids.foldl (fun s v => touch tileOf s t v) s) ∧
      ∀ v ∈ ids, (ids.foldl (fun s v => touch tileOf s t v) s).seen t v = true := by
    intro t s
    have turns := @grows_foldl tileOf _ nV (fun s v => touch tileOf s t v) ids
      (fun v member s => grows_touch s t (inside v member)) s
    exact ⟨turns.1, fun v member => turns.2 v member t v fun s =>
      (seen_touch s t v t v).2 (.inr ⟨rfl, rfl⟩)⟩
  have turns := @grows_foldl tileOf _ nV (fun s t => ids.foldl (fun s v => touch tileOf s t v) s)
    (bandsOf tileOf ids) (fun t _ s => (band t s).1) s
  exact ⟨turns.1, fun u here v member =>
    turns.2 (tileOf u) ((mem_bandsOf ids _).2 ⟨u, here, rfl⟩) (tileOf u) v fun s =>
      (band (tileOf u) s).2 v member⟩

end Ownership

section Decomposition

variable {α : Type*} {tileOf : Nat → Nat} {mesh : ClothMesh α}

theorem mem_triIds {t v : Nat} : v ∈ triIds mesh t ↔ ∃ r, mesh.tri t r = v := List.mem_ofFn

theorem mem_bendIds {b v : Nat} : v ∈ bendIds mesh b ↔ ∃ r, mesh.bend b r = v := List.mem_ofFn

/-- What the tiles hold: every vertex is owned by the tile of its band, and where a constraint has a
vertex of that band, all of its vertices are there. -/
structure Tiled (tileOf : Nat → Nat) (mesh : ClothMesh α) (s : Touched) : Prop where
  sound : s.Sound tileOf mesh.nVerts
  owns : ∀ t v, v ∈ s.owned t ↔ v < mesh.nVerts ∧ tileOf v = t
  tri : ∀ t < mesh.nTri, ∀ u ∈ triIds mesh t, ∀ v ∈ triIds mesh t, v ∈ s.held (tileOf u)
  bend : ∀ b < mesh.nBend, ∀ u ∈ bendIds mesh b, ∀ v ∈ bendIds mesh b, v ∈ s.held (tileOf u)

theorem tiled_touchAll (proper : mesh.Proper) : Tiled tileOf mesh (touchAll tileOf mesh) := by
  have triInside : ∀ t ∈ List.range mesh.nTri, ∀ v ∈ triIds mesh t, v < mesh.nVerts := by
    intro t member v corner
    obtain ⟨r, rfl⟩ := mem_triIds.1 corner
    exact proper.tri t (List.mem_range.1 member) r
  have bendInside : ∀ b ∈ List.range mesh.nBend, ∀ v ∈ bendIds mesh b, v < mesh.nVerts := by
    intro b member v corner
    obtain ⟨r, rfl⟩ := mem_bendIds.1 corner
    exact proper.bend b (List.mem_range.1 member) r
  have own := @grows_foldl tileOf _ mesh.nVerts (fun s v => touch tileOf s (tileOf v) v)
    (List.range mesh.nVerts)
    (fun v member s => grows_touch s (tileOf v) (List.mem_range.1 member)) .start
  have tris := fun s => @grows_foldl tileOf _ mesh.nVerts
    (fun s t => touchConstraint tileOf s (triIds mesh t)) (List.range mesh.nTri)
    (fun t member s => (touchConstraint_spec s (triInside t member)).1) s
  have bends := fun s => @grows_foldl tileOf _ mesh.nVerts
    (fun s b => touchConstraint tileOf s (bendIds mesh b)) (List.range mesh.nBend)
    (fun b member s => (touchConstraint_spec s (bendInside b member)).1) s
  have start : Touched.start.Sound tileOf mesh.nVerts :=
    ⟨fun t v => by simp [Touched.start, Touched.held],
      fun t => by simp [Touched.start, Touched.held],
      fun t v member => absurd member List.not_mem_nil,
      fun t v member => absurd member List.not_mem_nil,
      fun t v member => absurd member List.not_mem_nil⟩
  have sound : (touchAll tileOf mesh).Sound tileOf mesh.nVerts :=
    (bends _).1.sound ((tris _).1.sound (own.1.sound start))
  refine ⟨sound, fun t v => ⟨fun member => ?_, ?_⟩, fun t inside u corner v corner' => ?_,
    fun b inside u corner v corner' => ?_⟩
  · exact ⟨sound.inside t v (List.mem_append_left _ member), sound.owned t v member⟩
  · rintro ⟨inside, rfl⟩
    have seen : (touchAll tileOf mesh).seen (tileOf v) v = true :=
      (bends _).1.seen _ _ ((tris _).1.seen _ _
        (own.2 v (List.mem_range.2 inside) _ _ fun s => (seen_touch s _ v _ v).2 (.inr ⟨rfl, rfl⟩)))
    obtain owned | ghost := List.mem_append.1 ((sound.seen _ _).1 seen)
    · exact owned
    · exact absurd rfl (sound.ghost _ _ ghost)
  · have member := List.mem_range.2 inside
    exact (sound.seen _ _).1 ((bends _).1.seen _ _ ((tris _).2 t member _ _ fun s =>
      (touchConstraint_spec s (triInside t member)).2 u corner v corner'))
  · have member := List.mem_range.2 inside
    exact (sound.seen _ _).1 ((bends _).2 b member _ _ fun s =>
      (touchConstraint_spec s (bendInside b member)).2 u corner v corner')

variable [Zero α]

/-- Vertices added to a tile stand at their places. -/
theorem foldl_addVertex (vs : List Nat) (place : Nat → Nat) (vs' : List Nat) (nOwned : Nat)
    (nodup : (vs' ++ vs).Nodup) (placed : ∀ v ∈ vs', vs'[place v]? = some v) :
    ∃ place', vs.foldl (addVertex mesh) (place, ⟨cut mesh place vs' [] [] [], nOwned, vs'⟩) =
        (place', ⟨cut mesh place' (vs' ++ vs) [] [] [], nOwned, vs' ++ vs⟩) ∧
      ∀ v ∈ vs' ++ vs, (vs' ++ vs)[place' v]? = some v := by
  induction vs generalizing place vs' with
  | nil => exact ⟨place, by rw [List.append_nil, List.foldl_nil], by simpa using placed⟩
  | cons v vs inductionHypothesis =>
    have apart : v ∉ vs' := fun member =>
      (List.nodup_append.1 nodup).2.2 v member v List.mem_cons_self rfl
    have step : addVertex mesh (place, ⟨cut mesh place vs' [] [] [], nOwned, vs'⟩) v =
        (Function.update place v vs'.length,
          ⟨cut mesh (Function.update place v vs'.length) (vs' ++ [v]) [] [] [], nOwned,
            vs' ++ [v]⟩) := by
      simp [addVertex, pushVertex, cut]
    have more := inductionHypothesis (Function.update place v vs'.length) (vs' ++ [v])
      (by simpa using nodup) (fun u member => ?_)
    · simpa [step] using more
    · obtain before | last := List.mem_append.1 member
      · have other : u ≠ v := fun same => apart (same ▸ before)
        have here := placed u before
        rw [Function.update_of_ne other, List.getElem?_append_left]
        · exact here
        · exact (List.getElem?_eq_some_iff.1 here).1
      · obtain rfl := List.mem_singleton.1 last
        simp

/-- A loop that passes over some elements. -/
theorem foldl_if {ι σ : Type*} (keep : ι → Prop) [DecidablePred keep] (step : σ → ι → σ)
    (items : List ι) (state : σ) :
    items.foldl (fun state item => if keep item then step state item else state) state =
      (items.filter fun item => keep item).foldl step state := by
  rw [List.foldl_filter]
  simp

/-- The elements of a tile, and its mesh. -/
theorem makeTile_eq {s : Touched} (tiled : Tiled tileOf mesh s) (t : Nat) :
    ∃ place : Nat → Nat, (∀ v ∈ s.held t, (s.held t)[place v]? = some v) ∧
      makeTile tileOf mesh s t =
        { mesh :=
            { cut mesh place (s.held t)
                ((List.range mesh.nTri).filter fun ti => inTile tileOf t (triIds mesh ti))
                ((List.range mesh.nBend).filter fun b => inTile tileOf t (bendIds mesh b))
                ((List.range mesh.nAttach).filter fun a => tileOf (mesh.attach a) = t) with
              faces := ((List.range mesh.nTri).filter fun ti =>
                inTile tileOf t (triIds mesh ti)).map fun ti r => place (mesh.tri ti r) }
          nOwned := (s.owned t).length
          globalId := s.held t } := by
  have nodup := tiled.sound.nodup t
  obtain ⟨place, laid, placed⟩ := @foldl_addVertex α mesh _ (s.owned t ++ s.ghost t)
    (fun _ => 0xFFFFFFFF) [] (s.owned t).length nodup (by simp)
  rw [List.nil_append] at laid placed
  refine ⟨place, placed, ?_⟩
  unfold makeTile
  dsimp only
  rw [← List.foldl_append]
  have start : (⟨.empty, (s.owned t).length, []⟩ : PanelTile α) =
      ⟨cut mesh (fun _ => 0xFFFFFFFF) [] [] [] [], (s.owned t).length, []⟩ := rfl
  rw [start, laid]
  dsimp only
  have attachs : (fun (im : ClothMesh α) a =>
      if tileOf (mesh.attach a) ≠ t then im else pushAttach mesh place a im) = fun im a =>
      if tileOf (mesh.attach a) = t then pushAttach mesh place a im else im := by
    funext im a
    rw [ite_not]
  rw [attachs, foldl_if, foldl_if, foldl_if, foldl_pushTri, foldl_pushBend, foldl_pushAttach]
  simp only [List.nil_append, Bool.decide_eq_true]
  rfl

end Decomposition

section Panel

variable {α : Type*} [Zero α] [One α] [Sub α] [Div α] [Mul α] [NatCast α] [LT α] [DecidableLT α]
  (trunc : α → Nat) {mesh : ClothMesh α} {nTiles : Nat}

/-- Every vertex is in the band of a tile. -/
theorem tileOf_lt (atLeast : 1 ≤ nTiles) (v : Nat) : tileOf trunc mesh nTiles v < nTiles := by
  unfold tileOf
  dsimp only
  generalize trunc _ = t
  split <;> omega

/-- The vertices that a tile owns. -/
def PanelTile.owned (tile : PanelTile α) : List Nat := tile.globalId.take tile.nOwned

/-- The vertices and elements that a tile takes from the mesh. -/
structure TileOf (mesh : ClothMesh α) (ts bs as : List Nat) (tile : PanelTile α) : Prop where
  part : PartOf mesh tile.globalId ts bs as tile.mesh
  inside : ∀ v ∈ tile.globalId, v < mesh.nVerts
  nodup : tile.globalId.Nodup ∧ ts.Nodup ∧ bs.Nodup ∧ as.Nodup
  tri : ∀ t, t ∈ ts ↔ t < mesh.nTri ∧ ∃ r, mesh.tri t r ∈ tile.owned
  bend : ∀ b, b ∈ bs ↔ b < mesh.nBend ∧ ∃ r, mesh.bend b r ∈ tile.owned
  attach : ∀ a, a ∈ as ↔ a < mesh.nAttach ∧ mesh.attach a ∈ tile.owned

/-- Every vertex is owned by one tile. A tile is a part of the mesh without repetition, with exactly
the triangles and bendings that one of its own vertices is in, and the attachments of these. -/
theorem splitConnectedPanel_decomposes (mesh : ClothMesh α) (proper : mesh.Proper)
    (atLeast : 1 ≤ nTiles) :
    (splitConnectedPanel trunc mesh nTiles).length = nTiles ∧
    (∀ v < mesh.nVerts, ∃! t : Nat, ∃ tile : PanelTile α,
      (splitConnectedPanel trunc mesh nTiles)[t]? = some tile ∧ v ∈ tile.owned) ∧
    ∀ tile ∈ splitConnectedPanel trunc mesh nTiles, ∃ ts bs as, TileOf mesh ts bs as tile := by
  have tiled : Tiled (tileOf trunc mesh nTiles) mesh (touchAll (tileOf trunc mesh nTiles) mesh) :=
    tiled_touchAll proper
  have below : ∀ v, tileOf trunc mesh nTiles v < nTiles := tileOf_lt trunc atLeast
  unfold splitConnectedPanel
  dsimp only
  generalize touchAll (tileOf trunc mesh nTiles) mesh = s at tiled ⊢
  generalize tileOf trunc mesh nTiles = tileOf at tiled below ⊢
  have owned : ∀ t v, v ∈ (makeTile tileOf mesh s t).owned ↔ v < mesh.nVerts ∧ tileOf v = t := by
    intro t v
    obtain ⟨place, _, made⟩ := makeTile_eq tiled t
    rw [made, ← tiled.owns t v]
    simp [PanelTile.owned, Touched.held]
  refine ⟨by simp, fun v inside => ⟨tileOf v, ?_, ?_⟩, fun tile member => ?_⟩
  · refine ⟨makeTile tileOf mesh s (tileOf v), ?_, (owned _ v).2 ⟨inside, rfl⟩⟩
    simp [below v]
  · rintro t ⟨tile, here, own⟩
    rw [List.getElem?_map, Option.map_eq_some_iff] at here
    obtain ⟨t', at', rfl⟩ := here
    have same := (List.getElem?_eq_some_iff.1 at').2
    rw [List.getElem_range] at same
    rw [same]
    exact ((owned t' v).1 own).2.symm
  · obtain ⟨t, _, rfl⟩ := List.mem_map.1 member
    obtain ⟨place, placed, made⟩ := makeTile_eq tiled t
    have inTri : ∀ ti, inTile tileOf t (triIds mesh ti) = true ↔
        ∃ r, tileOf (mesh.tri ti r) = t := by
      intro ti
      simp [inTile, mem_triIds]
    have inBend : ∀ b, inTile tileOf t (bendIds mesh b) = true ↔
        ∃ r, tileOf (mesh.bend b r) = t := by
      intro b
      simp [inTile, mem_bendIds]
    refine ⟨(List.range mesh.nTri).filter fun ti => inTile tileOf t (triIds mesh ti),
      (List.range mesh.nBend).filter fun b => inTile tileOf t (bendIds mesh b),
      (List.range mesh.nAttach).filter fun a => tileOf (mesh.attach a) = t, ?_, ?_, ?_, ?_, ?_, ?_⟩
    · rw [made]
      refine partOf_cut mesh (fun ti member r => ?_) (fun b member r => ?_) fun a member => ?_
      · obtain ⟨inRange, here⟩ := List.mem_filter.1 member
        obtain ⟨own, band⟩ := (inTri ti).1 here
        refine placed _ (band ▸ tiled.tri ti (List.mem_range.1 inRange) _ ?_ _ ?_)
        · exact mem_triIds.2 ⟨own, rfl⟩
        · exact mem_triIds.2 ⟨r, rfl⟩
      · obtain ⟨inRange, here⟩ := List.mem_filter.1 member
        obtain ⟨own, band⟩ := (inBend b).1 here
        refine placed _ (band ▸ tiled.bend b (List.mem_range.1 inRange) _ ?_ _ ?_)
        · exact mem_bendIds.2 ⟨own, rfl⟩
        · exact mem_bendIds.2 ⟨r, rfl⟩
      · obtain ⟨inRange, here⟩ := List.mem_filter.1 member
        refine placed _ (List.mem_append_left _ ((tiled.owns t _).2 ⟨?_, by simpa using here⟩))
        exact proper.attach a (List.mem_range.1 inRange)
    · rw [made]
      exact tiled.sound.inside t
    · rw [made]
      exact ⟨tiled.sound.nodup t, List.nodup_range.filter _, List.nodup_range.filter _,
        List.nodup_range.filter _⟩
    · intro ti
      rw [List.mem_filter, List.mem_range, inTri]
      refine and_congr_right fun inside => exists_congr fun r => ?_
      rw [owned]
      exact ⟨fun band => ⟨proper.tri ti inside r, band⟩, And.right⟩
    · intro b
      rw [List.mem_filter, List.mem_range, inBend]
      refine and_congr_right fun inside => exists_congr fun r => ?_
      rw [owned]
      exact ⟨fun band => ⟨proper.bend b inside r, band⟩, And.right⟩
    · intro a
      rw [List.mem_filter, List.mem_range, decide_eq_true_iff]
      refine and_congr_right fun inside => ?_
      rw [owned]
      exact ⟨fun band => ⟨proper.attach a inside, band⟩, And.right⟩

/-- A strip of two triangles, hung at one corner. -/
def strip : ClothMesh Rat where
  nx := 0
  ny := 0
  width := 0
  height := 0
  positions := [![0, 0, 0], ![1, 0, 0], ![1, 1, 0], ![2, 1, 0]]
  mass := [1, 1, 1, 1]
  triIdx := [![0, 1, 2], ![1, 3, 2]]
  triInvUV := [![1, 0, 0, 1], ![1, 0, 0, 1]]
  bendIdx := [![1, 2, 0, 3]]
  bendWeight := [![1, 1, -1, -1]]
  bendNTarget := [1]
  attachVert := [3]
  attachFixed := [![2, 1, 0]]
  faces := [![0, 1, 2], ![1, 3, 2]]

/-- The strip in two tiles. -/
theorem splitConnectedPanel_decomposes_strip :
    (splitConnectedPanel (fun f => f.floor.toNat) strip 2).length = 2 ∧
      ∀ tile ∈ splitConnectedPanel (fun f => f.floor.toNat) strip 2,
        ∃ ts bs as, TileOf strip ts bs as tile :=
  have tiles := splitConnectedPanel_decomposes (fun f => f.floor.toNat) strip ⟨by decide, by decide,
    by decide, by decide, by decide, by decide, by decide, by decide⟩ (by decide)
  ⟨tiles.1, tiles.2.2⟩

end Panel

end DressOn.Avbd.ClothGrid
