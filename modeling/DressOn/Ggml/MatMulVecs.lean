import DressOn.Ggml.MatMulTiles

/-!
# Few columns

Up to four columns a warp of 32 lanes takes each row, eight rows to a group. A lane adds up every
32nd product for all columns at once, and the lanes are reduced in shared memory. The serial sibling
does the work of a warp in its first lane.
-/

namespace DressOn.Ggml.MatMul

open ThreadGroups TreeReductions

variable {F : Type} (floats : Floats F)

/-! ## The kernels -/

section Thread

variable (entries : Entry × Entry) (s0 s1 dst : ℕ) (f : Frame) (groupsX : UInt32) (gid : Gid)
  (x y : ℕ)

/-- The row of a warp. -/
def warpRow : UInt32 :=
  (UInt32.ofNat gid.y * groupsX + UInt32.ofNat gid.x) * UInt32.ofNat kVecRows + UInt32.ofNat y

/-- One place of the shared dimension: `p0` is always added to, the others where there is a
column. -/
def addColumns (row : UInt32) (p : Fin 4 → F) (k : UInt32) : Code Cell F (Fin 4 → F) := do
  let a ← load floats entries.1 s0 (f.aAt k row)
  (List.finRange 4).foldlM (fun p (j : Fin 4) =>
    if j.val = 0 ∨ UInt32.ofNat j < f.n then do
      let b ← load floats entries.2 s1 (f.bAt k (UInt32.ofNat j))
      return Function.update p j (floats.add (p j) (floats.mul a b))
    else pure p) p

/-- `p0` to `p3` of a lane. -/
def laneSums (row : UInt32) (l : ℕ) : Code Cell F (Fin 4 → F) :=
  along f.k 32 (addColumns floats entries s0 s1 f row) (UInt32.ofNat l) fun _ => floats.zero

/-- The sums of a lane of a warp that has a row. -/
def warpSums : Code Cell F (Fin 4 → F) :=
  let row := warpRow groupsX gid y
  if row < f.m then laneSums floats entries s0 s1 f row x else pure fun _ => floats.zero

/-- One stride of the reduction of a warp's columns. -/
def halveColumns (stride : ℕ) : Code Cell F PUnit :=
  if x < stride then
    (List.finRange 4).foldlM (fun _ (j : Fin 4) => do
      let low ← Code.read (.red gid (y * 4 + j) x)
      let high ← Code.read (.red gid (y * 4 + j) (x + stride))
      Code.write (.red gid (y * 4 + j) x) (floats.add low high)) ⟨⟩
  else pure ⟨⟩

/-- All strides, with a barrier after each. -/
def reduceColumns : List ℕ → Code Cell F PUnit
  | [] => pure ⟨⟩
  | stride :: rest => do
    halveColumns floats gid x y stride
    Code.barrier
    reduceColumns rest

/-- `main` of the kernels for few columns. -/
def vecs : Code Cell F PUnit := do
  let row := warpRow groupsX gid y
  let p ← warpSums floats entries s0 s1 f groupsX gid x y
  (List.finRange 4).foldlM (fun _ (j : Fin 4) =>
    Code.write (.red gid (y * 4 + j) x) (p j)) ⟨⟩
  Code.barrier
  reduceColumns floats gid x y (halvings 5)
  if UInt32.ofNat x < f.n && row < f.m then do
    let value ← Code.read (.red gid (y * 4 + x) 0)
    Code.write (.word dst (f.dAt row (UInt32.ofNat x)).toNat) value
  else pure ⟨⟩

/-- The last step of `vecs`: a lane stores its column. -/
def storeColumn : Code Cell F PUnit :=
  if UInt32.ofNat x < f.n && warpRow groupsX gid y < f.m then do
    let value ← Code.read (.red gid (y * 4 + x) 0)
    Code.write (.word dst (f.dAt (warpRow groupsX gid y) (UInt32.ofNat x)).toNat) value
  else pure ⟨⟩

/-- `main` of their serial siblings: `q0` to `q3` are the lanes' sums. -/
def serialVecs : Code Cell F PUnit :=
  let row := warpRow groupsX gid y
  if x ≠ 0 ∨ f.m ≤ row then pure ⟨⟩
  else do
    let q ← (List.range 32).foldlM (fun q l => do
      let p ← laneSums floats entries s0 s1 f row l
      return fun j => Function.update (q j) l (p j)) fun _ _ => floats.zero
    let q := (halvings 5).foldl (fun q stride => (List.range stride).foldl
      (fun q l j => Function.update (q j) l (floats.add (q j l) (q j (l + stride)))) q) q
    (List.finRange 4).foldlM (fun _ (j : Fin 4) =>
      if UInt32.ofNat j < f.n then
        Code.write (.word dst (f.dAt row (UInt32.ofNat j)).toNat) (q j 0)
      else pure ⟨⟩) ⟨⟩

end Thread

/-! ## The lanes -/

/-- The part of a product that a lane adds up. -/
def Batch.laneSum (batch : Batch F) (n row column l : ℕ) : F :=
  (lane n 32 l).foldl (fun c k => floats.add c (floats.mul (batch.a k row) (batch.b k column)))
    floats.zero

/-- The sums of a lane: the columns that there are. -/
def Batch.lanes (batch : Batch F) (n columns row l j : ℕ) : F :=
  if j < columns then batch.laneSum floats n row j l else floats.zero

section Lanes

variable {floats} {s0 s1 dst : ℕ} {cells : Cell → F} {node : Node} {packed : Packed} {gid : Gid}
  (runs : Runs packed node) (here : At packed node gid) {row : UInt32}
  (inside : row.toNat < node.a.ne 1)

include runs here inside

/-- One place adds a product to each column. -/
theorem addColumns_returns {k : UInt32} (low : k.toNat < node.a.ne 0) (p : Fin 4 → F) :
    Returns ⟨packed.sources s0 s1 node, ∅⟩
      (addColumns floats packed.entries s0 s1 (frameAt packed.slot gid.z) row p k) cells
      fun value m => value = (fun j => if j.val < node.b.ne 1 then
        floats.add (p j) (floats.mul
          ((batchOf floats s0 s1 cells packed node gid.z).a k.toNat row.toNat)
          ((batchOf floats s0 s1 cells packed node gid.z).b k.toNat j)) else p j) ∧ m = cells := by
  have kept : ∀ place ∈ packed.sources s0 s1 node, cells place = cells place := fun _ _ => rfl
  refine Returns.look Set.subset_union_left
    (lda_returns runs here.batch here.short kept low inside) ?_
  have a_eq : (batchOf floats s0 s1 cells packed node gid.z).a k.toNat row.toNat =
      aElement floats s0 cells packed node gid.z k.toNat row.toNat := if_pos ⟨low, inside⟩
  refine Returns.foldlM (fun before value m => m = cells ∧ ∀ j : Fin 4, value j =
    if j ∈ before ∧ j.val < node.b.ne 1 then floats.add (p j) (floats.mul
      ((batchOf floats s0 s1 cells packed node gid.z).a k.toNat row.toNat)
      ((batchOf floats s0 s1 cells packed node gid.z).b k.toNat j)) else p j) ?_
    ⟨rfl, fun j => (if_neg fun both => List.not_mem_nil both.1).symm⟩ ?_
  · rintro before j later split value m ⟨rfl, sums⟩
    have once : j ∉ before := by
      have nodup := List.nodup_finRange 4
      rw [split, List.nodup_append] at nodup
      exact fun earlier => nodup.2.2 j earlier j List.mem_cons_self rfl
    have column : (UInt32.ofNat j).toNat = j := UInt32.toNat_ofNat_of_lt' (j.isLt.trans (by decide))
    have some_column := runs.pos.2 1
    have guard : (j.val = 0 ∨ UInt32.ofNat j < (frameAt packed.slot gid.z).n) ↔
        j.val < node.b.ne 1 := by
      rw [UInt32.lt_iff_toNat_lt, frameAt, runs.src1.ne, column]
      omega
    have others (j' : Fin 4) (other : j' ≠ j) (q : Prop) :
        j' ∈ before ++ [j] ∧ q ↔ j' ∈ before ∧ q := by
      rw [List.mem_append, List.mem_singleton, or_iff_left other]
    split
    next there =>
      rw [guard] at there
      refine Returns.look Set.subset_union_left
        (ldb_returns runs here.batch here.short kept low
          (column.trans_lt there)) ⟨rfl, fun j' => ?_⟩
      by_cases last : j' = j
      · subst last
        have b_eq : (batchOf floats s0 s1 m packed node gid.z).b k.toNat j' =
            bElement floats s1 m packed node gid.z k.toNat j' := if_pos ⟨low, there⟩
        rw [Function.update_self, sums, if_neg fun both => once both.1, column,
          if_pos ⟨List.mem_append_right _ (List.mem_singleton_self _), there⟩, a_eq, b_eq]
      · rw [Function.update_of_ne last, sums]
        exact if_congr (others j' last _).symm rfl rfl
    next none_ =>
      rw [guard] at none_
      refine ⟨rfl, fun j' => ?_⟩
      by_cases last : j' = j
      · subst last
        rw [sums, if_neg fun both => none_ both.2, if_neg fun both => none_ both.2]
      · rw [sums]
        exact if_congr (others j' last _).symm rfl rfl
  · rintro value m ⟨rfl, sums⟩
    refine ⟨funext fun j => (sums j).trans ?_, rfl⟩
    exact if_congr (and_iff_right (List.mem_finRange j)) rfl rfl

/-- A lane adds up its part of each column. -/
theorem laneSums_returns (short : node.a.ne 0 + 32 ≤ 2 ^ 32) {l : ℕ} (own : l < 32) :
    Returns ⟨packed.sources s0 s1 node, ∅⟩
      (laneSums floats packed.entries s0 s1 (frameAt packed.slot gid.z) row l) cells
      fun value m => value = (fun j : Fin 4 => (batchOf floats s0 s1 cells packed node gid.z).lanes
        floats (node.a.ne 0) (node.b.ne 1) row.toNat l j) ∧ m = cells := by
  have length : (frameAt packed.slot gid.z).k.toNat = node.a.ne 0 := runs.src0.ne 0
  have width : (32 : UInt32).toNat = 32 := rfl
  have thread : (UInt32.ofNat l).toNat = l := UInt32.toNat_ofNat_of_lt' (own.trans (by decide))
  rw [laneSums, along_eq_foldlM (by decide) (by omega), length, width, thread]
  refine Returns.foldlM (fun before value m => m = cells ∧ value = fun j : Fin 4 =>
    if j.val < node.b.ne 1 then
      before.foldl (fun c k => floats.add c (floats.mul
        ((batchOf floats s0 s1 cells packed node gid.z).a k row.toNat)
        ((batchOf floats s0 s1 cells packed node gid.z).b k j))) floats.zero
    else floats.zero) ?_ ⟨rfl, (funext fun j => ite_self _).symm⟩ ?_
  · rintro before k later split value m ⟨rfl, rfl⟩
    have low : k < node.a.ne 0 := ((mem_lane own).1 (split ▸ List.mem_append_cons_self)).1
    have depth : (UInt32.ofNat k).toNat = k :=
      UInt32.toNat_ofNat_of_lt' (low.trans_le ((runs.small.1 0).trans (by decide)))
    refine (addColumns_returns runs here inside (depth.trans_lt low) _).weaken ?_
    rintro value m ⟨rfl, rfl⟩
    refine ⟨rfl, funext fun j => ?_⟩
    by_cases column : j.val < node.b.ne 1
    · rw [if_pos column, if_pos column, if_pos column, List.foldl_append, depth]
      rfl
    · rw [if_neg column, if_neg column, if_neg column]
  · rintro value m ⟨rfl, rfl⟩
    exact ⟨rfl, rfl⟩

end Lanes

/-! ## The reduction -/

section Reduce

variable {floats} {s0 s1 dst : ℕ} {cells : Cell → F} {node : Node} {packed : Packed} {gid : Gid}
  {home : (Fin 4 → ℕ) → Gid} {post : (Cell → F) → Prop}

/-- The memory with the sums of all lanes, row by row of `red`. -/
def filled (gid : Gid) (sums : ℕ → ℕ → F) (cells : Cell → F) : Cell → F
  | .red g row lane =>
    if g = gid ∧ row < 32 ∧ lane < 32 then sums row lane else cells (.red g row lane)
  | place => cells place

theorem filled_red (sums : ℕ → ℕ → F) {row lane : ℕ} (low : row < 32) (own : lane < 32) :
    filled gid sums cells (.red gid row lane) = sums row lane := if_pos ⟨rfl, low, own⟩

theorem filled_other (sums : ℕ → ℕ → F) {place : Cell}
    (off : ∀ row < 32, ∀ lane < 32, place ≠ .red gid row lane) :
    filled gid sums cells place = cells place := by
  cases place with
  | tile g second kk rr => rfl
  | word buffer index => rfl
  | red g row lane =>
      refine if_neg ?_
      rintro ⟨rfl, low, own⟩
      exact off row low lane own rfl

/-- The cells that a thread stores to at a stride. -/
def ownRed (gid : Gid) (x y : ℕ) : Set Cell := {place | ∃ j : Fin 4, place = .red gid (y * 4 + j) x}

theorem ownRed_apart {t u : Fin 32 × Fin 8} (other : t ≠ u) {place : Cell}
    (mine : place ∈ ownRed gid t.1 t.2) : place ∉ ownRed gid u.1 u.2 := by
  rintro ⟨j, same⟩
  obtain ⟨i, rfl⟩ := mine
  obtain ⟨-, rows, lanes⟩ := Cell.red.inj same
  exact other (Prod.ext (Fin.ext lanes) (Fin.ext (by omega)))

/-- A thread halves its columns. -/
theorem halveColumns_returns {x y stride : ℕ} (thread : x < 32 ∧ y < 8) (fits : 2 * stride ≤ 32)
    (lower : x < stride) (sums : ℕ → ℕ → F) :
    Returns ⟨{place | ∃ j : Fin 4, place = .red gid (y * 4 + j) (x + stride)}, ownRed gid x y⟩
      (halveColumns floats gid x y stride) (filled gid sums cells) fun _ m =>
        ∀ place ∈ ownRed gid x y,
          m place = filled gid (fun row => halved floats.add stride (sums row)) cells place := by
  rw [halveColumns, if_pos lower]
  refine Returns.foldlM (fun before _ m =>
    (∀ j : Fin 4, j ∈ before → m (.red gid (y * 4 + j) x) =
      floats.add (sums (y * 4 + j) x) (sums (y * 4 + j) (x + stride))) ∧
    ∀ place, (∀ j : Fin 4, j ∈ before → place ≠ .red gid (y * 4 + j) x) →
      m place = filled gid sums cells place) ?_
    ⟨fun j none_ => absurd none_ List.not_mem_nil, fun _ _ => rfl⟩ ?_
  · rintro before j later split - m ⟨done, rest⟩
    have once : j ∉ before := by
      have nodup := List.nodup_finRange 4
      rw [split, List.nodup_append] at nodup
      exact fun earlier => nodup.2.2 j earlier j List.mem_cons_self rfl
    have own (i : Fin 4) : y * 4 + i.val < 32 := by omega
    have low_eq := rest (.red gid (y * 4 + j) x) fun i earlier same => by
      obtain rfl : j = i := Fin.ext (by have := (Cell.red.inj same).2.1; omega)
      exact once earlier
    have high_eq := rest (.red gid (y * 4 + j) (x + stride)) fun i earlier same => by
      have := (Cell.red.inj same).2.2
      omega
    refine Returns.read ?_ (Returns.read ?_ ⟨⟨j, rfl⟩, ?_, ?_⟩)
    · exact .inr ⟨j, rfl⟩
    · exact .inl ⟨j, rfl⟩
    · intro i member
      by_cases last : i = j
      · subst last
        rw [Function.update_self, low_eq, high_eq, filled_red sums (own i) thread.1,
          filled_red sums (own i) (by omega)]
      · have other : Cell.red gid (y * 4 + i) x ≠ .red gid (y * 4 + j) x := fun same =>
          last (Fin.ext (by have := (Cell.red.inj same).2.1; omega))
        rw [Function.update_of_ne other]
        rcases List.mem_append.1 member with earlier | same
        · exact done i earlier
        · exact absurd (List.mem_singleton.1 same) last
    · intro place off
      rw [Function.update_of_ne (off j (List.mem_append_right _ (List.mem_singleton_self j)))]
      exact rest place fun i earlier => off i (List.mem_append_left _ earlier)
  · rintro - m ⟨done, -⟩ place ⟨j, rfl⟩
    rw [done j (List.mem_finRange j), filled_red _ (by omega) thread.1, halved, if_pos lower]

/-- One stride, and the barrier after it. -/
theorem finishes_halveColumns {stride : ℕ} (fits : 2 * stride ≤ 32) (sums : ℕ → ℕ → F)
    {next : Fin 32 × Fin 8 → Code Cell F PUnit}
    (later : Finishes (packed.area s0 s1 dst node home gid) next
      (filled gid (fun row => halved floats.add stride (sums row)) cells) post) :
    Finishes (packed.area s0 s1 dst node home gid)
      (fun t => halveColumns floats gid t.1 t.2 stride >>= fun _ =>
        Code.barrier >>= fun _ => next t) (filled gid sums cells) post := by
  let foot (t : Fin 32 × Fin 8) : Territory Cell :=
    if t.1.val < stride then
      ⟨{place | ∃ j : Fin 4, place = .red gid (t.2 * 4 + j) (t.1 + stride)}, ownRed gid t.1 t.2⟩
    else ⟨∅, ∅⟩
  have low {t : Fin 32 × Fin 8} (lower : t.1.val < stride) : foot t =
      ⟨{place | ∃ j : Fin 4, place = .red gid (t.2 * 4 + j) (t.1 + stride)},
        ownRed gid t.1 t.2⟩ := if_pos lower
  have high {t : Fin 32 × Fin 8} (upper : ¬ t.1.val < stride) : foot t = ⟨∅, ∅⟩ := if_neg upper
  have stored {t : Fin 32 × Fin 8} {place : Cell} (mine : place ∈ (foot t).writes) :
      t.1.val < stride ∧ place ∈ ownRed gid t.1 t.2 := by
    by_cases lower : t.1.val < stride
    · rw [low lower] at mine
      exact ⟨lower, mine⟩
    · rw [high lower] at mine
      exact absurd mine (Set.notMem_empty _)
  have shared {t : Fin 32 × Fin 8} {place : Cell} (mine : place ∈ (foot t).cells) :
      place.gid? = some gid := by
    by_cases lower : t.1.val < stride
    · rw [low lower] at mine
      rcases mine with ⟨j, rfl⟩ | ⟨j, rfl⟩ <;> rfl
    · rw [high lower] at mine
      rcases mine with mine | mine <;> exact absurd mine (Set.notMem_empty _)
  refine Finishes.stage foot (fun _ => ⟨⟩) _
    (fun t => ⟨fun place mine => .inr (.inl (shared mine)),
      fun place mine => .inl (shared (.inr mine))⟩)
    (fun t u other => Set.disjoint_left.2 fun place mine yours => ?_) (fun t => ?_)
    (fun place unwritten => ?_) later
  · obtain ⟨lower, own⟩ := stored mine
    by_cases lower' : u.1.val < stride
    · rw [low lower'] at yours
      rcases yours with ⟨j, rfl⟩ | yours
      · obtain ⟨i, same⟩ := own
        have := (Cell.red.inj same).2.2
        omega
      · exact ownRed_apart other own yours
    · rw [high lower'] at yours
      rcases yours with yours | yours <;> exact absurd yours (Set.notMem_empty _)
  · by_cases lower : t.1.val < stride
    · rw [low lower]
      refine (halveColumns_returns ⟨t.1.isLt, t.2.isLt⟩ fits lower sums).weaken ?_
      exact fun _ m done => ⟨rfl, done⟩
    · rw [high lower, halveColumns, if_neg lower]
      exact ⟨rfl, fun place mine => absurd mine (Set.notMem_empty _)⟩
  · by_cases on : ∃ row < 32, ∃ lane < 32, place = .red gid row lane
    · obtain ⟨row, inRow, lane, inLane, rfl⟩ := on
      have upper : ¬ lane < stride := fun lower => by
        refine unwritten (⟨lane, inLane⟩, ⟨row / 4, by omega⟩) ?_
        rw [low lower]
        exact ⟨⟨row % 4, Nat.mod_lt _ (by decide)⟩, congrArg (Cell.red gid · lane)
          (Nat.div_add_mod' row 4).symm⟩
      rw [filled_red _ inRow inLane, filled_red _ inRow inLane, halved, if_neg upper]
    · have off : ∀ row < 32, ∀ lane < 32, place ≠ .red gid row lane :=
        fun row inRow lane inLane same => on ⟨row, inRow, lane, inLane, same⟩
      rw [filled_other _ off, filled_other _ off]

/-- All strides. -/
theorem finishes_reduceColumns {strides : List ℕ} (fits : ∀ stride ∈ strides, 2 * stride ≤ 32)
    (sums : ℕ → ℕ → F) {next : Fin 32 × Fin 8 → Code Cell F PUnit}
    (later : Finishes (packed.area s0 s1 dst node home gid) next
      (filled gid (fun row => tree floats.add strides (sums row)) cells) post) :
    Finishes (packed.area s0 s1 dst node home gid)
      (fun t => reduceColumns floats gid t.1 t.2 strides >>= fun _ => next t)
      (filled gid sums cells) post := by
  induction strides generalizing sums with
  | nil => exact later
  | cons stride strides inductionHypothesis =>
      have onward := inductionHypothesis
        (fun stride member => fits stride (List.mem_cons_of_mem _ member))
        (fun row => halved floats.add stride (sums row)) later
      have turn := finishes_halveColumns (fits stride List.mem_cons_self) sums onward
      simpa only [reduceColumns, bind_assoc] using turn

end Reduce

/-! ## A group's products -/

/-- The group of an element of the destination, in a grid of `gx` columns of groups. -/
def vecHome (node : Node) (gx : ℕ) (i : Fin 4 → ℕ) : Gid :=
  ⟨i 0 / 8 % gx, i 0 / 8 / gx, node.batch i⟩

/-- The element of the destination at a place: the lanes' sums, reduced. -/
def vecProductOf (s0 s1 : ℕ) (cells : Cell → F) (packed : Packed) (node : Node)
    (i : Fin 4 → ℕ) : F :=
  tree floats.add (halvings 5) ((batchOf floats s0 s1 cells packed node (node.batch i)).laneSum
    floats (node.a.ne 0) (i 0) (i 1)) 0

section Group

variable {floats} {s0 s1 dst : ℕ} {cells : Cell → F} {node : Node} {packed : Packed} {gid : Gid}

/-- What a group of warps runs under. -/
structure WarpsAt (packed : Packed) (node : Node) (gid : Gid) : Prop
    extends At packed node gid where
  few : node.b.ne 1 ≤ 4
  inside : gid.x < packed.grid.x
  groups : packed.slot.rowGroupsX.toNat = packed.grid.x
  room : (gid.y * packed.grid.x + gid.x) * 8 + 8 ≤ 2 ^ 32

/-- An element of a group is in the row of its warp. -/
theorem row_of_vecHome {i : Fin 4 → ℕ} (home : vecHome node packed.grid.x i = gid) {y : ℕ}
    (warp : i 0 % 8 = y) : i 0 = (gid.y * packed.grid.x + gid.x) * 8 + y := by
  obtain ⟨x_eq, y_eq, -⟩ := Gid.mk.inj home
  rw [← x_eq, ← y_eq, Nat.div_add_mod', ← warp, Nat.div_add_mod']

/-- The lanes' sums of a group, row by row of `red`. -/
def redSums (floats : Floats F) (batch : Batch F) (node : Node) (base row lane : ℕ) : F :=
  if base * 8 + row / 4 < node.a.ne 1 then
    batch.lanes floats (node.a.ne 0) (node.b.ne 1) (base * 8 + row / 4) lane (row % 4)
  else floats.zero

/-- A product has its lanes in one row of `red`. -/
theorem tree_redSums (batch : Batch F) {base y column : ℕ} (few : node.b.ne 1 ≤ 4)
    (row : base * 8 + y < node.a.ne 1) (inside : column < node.b.ne 1) :
    tree floats.add (halvings 5) (redSums floats batch node base (y * 4 + column)) 0 =
      tree floats.add (halvings 5)
        (batch.laneSum floats (node.a.ne 0) (base * 8 + y) column) 0 := by
  have warp : (y * 4 + column) / 4 = y := by omega
  have line : (y * 4 + column) % 4 = column := by omega
  refine tree_congr fun lane _ => ?_
  rw [redSums, warp, if_pos row, Batch.lanes, line, if_pos inside]

variable (runs : Runs packed node) (here : WarpsAt packed node gid)

include here

/-- The rows of a group do not wrap. -/
theorem toNat_warpRow {y : ℕ} (warp : y < 8) :
    (warpRow packed.slot.rowGroupsX gid y).toNat =
      (gid.y * packed.grid.x + gid.x) * 8 + y := by
  have room := here.room
  have y_small : (UInt32.ofNat y).toNat = y :=
    UInt32.toNat_ofNat_of_lt' (warp.trans (by decide))
  have x_small : (UInt32.ofNat gid.x).toNat = gid.x :=
    UInt32.toNat_ofNat_of_lt' (here.x.trans (by decide))
  have gidY_small : (UInt32.ofNat gid.y).toNat = gid.y :=
    UInt32.toNat_ofNat_of_lt' (here.y.trans (by decide))
  have eight : (UInt32.ofNat kVecRows).toNat = 8 := rfl
  rw [warpRow, UInt32.toNat_add, UInt32.toNat_mul, UInt32.toNat_add, UInt32.toNat_mul, y_small,
    x_small, gidY_small, eight, here.groups]
  omega

/-- The group of a warp's row. -/
theorem vecHome_row {y column : ℕ} (warp : y < 8) :
    vecHome node packed.grid.x
      (node.bIndex ((gid.y * packed.grid.x + gid.x) * 8 + y) column gid.z) = gid := by
  have block : ((gid.y * packed.grid.x + gid.x) * 8 + y) / 8 = gid.y * packed.grid.x + gid.x := by
    omega
  have x_eq : (gid.y * packed.grid.x + gid.x) % packed.grid.x = gid.x := by
    rw [Nat.mul_add_mod', Nat.mod_eq_of_lt here.inside]
  have y_eq : (gid.y * packed.grid.x + gid.x) / packed.grid.x = gid.y := by
    rw [Nat.add_comm, Nat.add_mul_div_right _ _ (Nat.zero_lt_of_lt here.inside),
      Nat.div_eq_of_lt here.inside, Nat.zero_add]
  have first : node.bIndex ((gid.y * packed.grid.x + gid.x) * 8 + y) column gid.z 0 =
    (gid.y * packed.grid.x + gid.x) * 8 + y := rfl
  rw [vecHome, batch_bIndex, first, block, x_eq, y_eq]

/-- The elements of a lane of a warp. -/
def Lane (t : Fin 32 × Fin 8) (i : Fin 4 → ℕ) : Prop := i 1 = t.1 ∧ i 0 % 8 = t.2

include runs

/-- The row and the columns of a warp. -/
theorem guard_vecs {y : ℕ} (warp : y < 8) {column : ℕ} (small : column < 32) :
    ((UInt32.ofNat column < (frameAt packed.slot gid.z).n ↔ column < node.b.ne 1) ∧
      (warpRow packed.slot.rowGroupsX gid y < (frameAt packed.slot gid.z).m ↔
        (gid.y * packed.grid.x + gid.x) * 8 + y < node.a.ne 1)) ∧
      (UInt32.ofNat column).toNat = column := by
  have word : (UInt32.ofNat column).toNat = column :=
    UInt32.toNat_ofNat_of_lt' (small.trans (by decide))
  rw [UInt32.lt_iff_toNat_lt, UInt32.lt_iff_toNat_lt, frameAt, runs.src1.ne, runs.src0.ne, word,
    toNat_warpRow here warp]
  exact ⟨⟨Iff.rfl, Iff.rfl⟩, rfl⟩

/-- The word of a warp's row and a column. -/
theorem toNat_dAt_warp {y : ℕ} (warp : y < 8) {column : ℕ} (inside : column < node.b.ne 1)
    (there : (gid.y * packed.grid.x + gid.x) * 8 + y < node.a.ne 1) :
    ((frameAt packed.slot gid.z).dAt (warpRow packed.slot.rowGroupsX gid y)
      (UInt32.ofNat column)).toNat = node.dst.element
        (node.bIndex ((gid.y * packed.grid.x + gid.x) * 8 + y) column gid.z) := by
  have few := here.few
  have number := toNat_warpRow here warp
  have word := (guard_vecs runs here warp (show column < 32 by omega)).2
  have address := runs.toNat_dAt here.batch here.short (number.trans_lt there)
    (word.trans_lt inside)
  rwa [number, word] at address

/-- The sums of a thread, where its warp has a row. -/
theorem sums_returns (short : node.a.ne 0 + 32 ≤ 2 ^ 32) (t : Fin 32 × Fin 8) :
    Returns ⟨packed.sources s0 s1 node, ∅⟩
      (warpSums floats packed.entries s0 s1 (frameAt packed.slot gid.z) packed.slot.rowGroupsX gid
        t.1 t.2) cells fun value m =>
        value = (fun j : Fin 4 => redSums floats (batchOf floats s0 s1 cells packed node gid.z) node
          (gid.y * packed.grid.x + gid.x) (t.2 * 4 + j) t.1) ∧ m = cells := by
  obtain ⟨⟨-, row⟩, -⟩ := guard_vecs runs here t.2.isLt t.1.isLt
  have number := toNat_warpRow here t.2.isLt
  have line (j : Fin 4) : (t.2.val * 4 + j) / 4 = t.2 ∧ (t.2.val * 4 + j) % 4 = j := by omega
  rw [warpSums]
  split
  next there =>
    rw [row] at there
    refine (laneSums_returns runs here.toAt (number.trans_lt there) short t.1.isLt).weaken ?_
    rintro value m ⟨rfl, rfl⟩
    refine ⟨funext fun j => ?_, rfl⟩
    rw [redSums, (line j).1, (line j).2, if_pos there, number]
  next none_ =>
    rw [row] at none_
    refine ⟨funext fun j => ?_, rfl⟩
    rw [redSums, (line j).1, if_neg none_]

variable (floats cells) in
/-- Once the lanes are reduced, the stores of a group leave its products. -/
theorem finishes_storeColumn (ready : Ready s0 s1 dst packed node) :
    Finishes (packed.area s0 s1 dst node (vecHome node packed.grid.x) gid)
      (fun t : Fin 32 × Fin 8 => storeColumn dst (frameAt packed.slot gid.z)
        packed.slot.rowGroupsX gid t.1 t.2)
      (filled gid (fun row => tree floats.add (halvings 5)
        (redSums floats (batchOf floats s0 s1 cells packed node gid.z) node
          (gid.y * packed.grid.x + gid.x) row)) cells)
      fun final => ∀ i, node.dst.Holds i → vecHome node packed.grid.x i = gid →
        final (.word dst (node.dst.element i)) =
          vecProductOf floats s0 s1 cells packed node i := by
  have few := here.few
  refine ready.finishes_store Lane (sharedCells gid) (fun _ mine => .inl mine)
    (fun t u i mine yours => ?_) (fun i holds home => ?_) fun t => ?_
  · exact Prod.ext (Fin.ext (mine.1.symm.trans yours.1)) (Fin.ext (mine.2.symm.trans yours.2))
  · have column := (holds 1).trans_eq runs.columns
    exact ⟨(⟨i 1, by omega⟩, ⟨i 0 % 8, Nat.mod_lt _ (by decide)⟩), rfl, rfl⟩
  · obtain ⟨⟨column, row⟩, -⟩ := guard_vecs runs here t.2.isLt t.1.isLt
    rw [storeColumn]
    split
    next there =>
      rw [Bool.and_eq_true, decide_eq_true_iff, decide_eq_true_iff, column, row] at there
      obtain ⟨inside, there⟩ := there
      rw [toNat_dAt_warp runs here t.2.isLt inside there]
      refine Returns.read (.inl rfl) ⟨⟨_, runs.d_holds here.batch there inside,
        vecHome_row here t.2.isLt, ⟨rfl, ?_⟩, rfl⟩, fun i holds home mine => ?_⟩
      · change ((gid.y * packed.grid.x + gid.x) * 8 + t.2.val) % 8 = t.2
        omega
      · have whole := (runs.bIndex_batch holds).2
        have batch : node.batch i = gid.z := congrArg Gid.z home
        have row_i := row_of_vecHome home mine.2
        rw [batch, mine.1, row_i] at whole
        rw [← whole, Function.update_self, vecProductOf, batch_bIndex,
          filled_red _ (by omega) (by decide)]
        exact tree_redSums _ few there inside
    next none_ =>
      refine fun i holds home mine => absurd ?_ none_
      rw [Bool.and_eq_true, decide_eq_true_iff, decide_eq_true_iff, column, row,
        ← row_of_vecHome home mine.2, ← mine.1]
      exact ⟨(holds 1).trans_eq runs.columns, (holds 0).trans_eq runs.rows⟩

/-- The first step of `vecs`: every lane brings its sums to its places of `red`. -/
theorem finishes_bringSums (short : node.a.ne 0 + 32 ≤ 2 ^ 32)
    {next : Fin 32 × Fin 8 → Code Cell F PUnit} {post : (Cell → F) → Prop}
    (later : Finishes (packed.area s0 s1 dst node (vecHome node packed.grid.x) gid) next
      (filled gid (redSums floats (batchOf floats s0 s1 cells packed node gid.z) node
        (gid.y * packed.grid.x + gid.x)) cells) post) :
    Finishes (packed.area s0 s1 dst node (vecHome node packed.grid.x) gid)
      (fun t : Fin 32 × Fin 8 =>
        (warpSums floats packed.entries s0 s1 (frameAt packed.slot gid.z) packed.slot.rowGroupsX
          gid t.1 t.2 >>= fun p => (List.finRange 4).foldlM
            (fun _ (j : Fin 4) => Code.write (.red gid (t.2 * 4 + j) t.1) (p j)) ⟨⟩) >>= fun _ =>
        Code.barrier >>= fun _ => next t) cells post := by
  refine Finishes.stage (fun t => ⟨packed.sources s0 s1 node, ownRed gid t.1 t.2⟩)
    (fun _ => ⟨⟩) _ (fun t => ⟨?_, ?_⟩) (fun t u other => ?_) (fun t => ?_)
    (fun place unwritten => ?_) later
  · rintro place (source | ⟨j, rfl⟩)
    · exact .inl source
    · exact .inr (.inl rfl)
  · rintro place ⟨j, rfl⟩
    exact .inl rfl
  · refine Set.disjoint_left.2 ?_
    rintro place mine (source | yours)
    · obtain ⟨j, rfl⟩ := mine
      rcases source with ⟨i, -, wrong⟩ | ⟨i, -, wrong⟩ <;> cases wrong
    · exact ownRed_apart other mine yours
  · refine Returns.look Set.subset_union_left (sums_returns runs here short t) ?_
    refine (returns_all_writes (fun j _ => ?_) (fun i _ j _ same => ?_)).weaken ?_
    · exact ⟨j, rfl⟩
    · exact congrArg (redSums floats _ node _ · _) (Cell.red.inj same).2.1
    · rintro - m written
      refine ⟨rfl, ?_⟩
      rintro place ⟨j, rfl⟩
      rw [written j (List.mem_finRange j), filled_red _ (by omega) t.1.isLt]
  · refine filled_other _ fun row inRow lane inLane same => ?_
    refine unwritten (⟨lane, inLane⟩, ⟨row / 4, by omega⟩) ?_
    exact ⟨⟨row % 4, Nat.mod_lt _ (by decide)⟩, same.trans
      (congrArg (Cell.red gid · lane) (Nat.div_add_mod' row 4).symm)⟩

/-- The group of a kernel for few columns leaves its products. -/
theorem finishes_vecs (ready : Ready s0 s1 dst packed node) :
    Finishes (packed.area s0 s1 dst node (vecHome node packed.grid.x) gid)
      (fun t : Fin 32 × Fin 8 => vecs floats packed.entries s0 s1 dst (frameAt packed.slot gid.z)
        packed.slot.rowGroupsX gid t.1 t.2) cells
      fun final => ∀ i, node.dst.Holds i → vecHome node packed.grid.x i = gid →
        final (.word dst (node.dst.element i)) =
          vecProductOf floats s0 s1 cells packed node i := by
  have fits (stride : ℕ) (member : stride ∈ halvings 5) : 2 * stride ≤ 32 :=
    two_mul_le_of_mem_halvings member
  have stored := finishes_storeColumn floats cells runs here ready
  have reduced := finishes_reduceColumns fits _ stored
  have brought := finishes_bringSums runs here ready.short reduced
  simpa only [vecs, storeColumn, bind_assoc] using brought

omit here runs in
/-- Halving all columns in place is halving each. -/
theorem foldl_columns (strides : List ℕ) (q : Fin 4 → ℕ → F) (j : Fin 4) :
    (strides.foldl (fun q stride => (List.range stride).foldl
      (fun q l j => Function.update (q j) l (floats.add (q j l) (q j (l + stride)))) q) q) j =
      tree floats.add strides (q j) := by
  have one (stride : ℕ) (items : List ℕ) (q : Fin 4 → ℕ → F) :
      (items.foldl (fun q l j => Function.update (q j) l
        (floats.add (q j l) (q j (l + stride)))) q) j =
      items.foldl (fun q l => Function.update q l (floats.add (q l) (q (l + stride)))) (q j) := by
    induction items generalizing q with
    | nil => rfl
    | cons l items inductionHypothesis => exact inductionHypothesis _
  induction strides generalizing q with
  | nil => rfl
  | cons stride strides inductionHypothesis =>
      rw [List.foldl_cons, inductionHypothesis, one, foldl_update_eq_halved]
      rfl

variable (floats s0 s1 cells) in
/-- A serial sibling takes the lanes' sums of a row one after the other. -/
theorem rowLanes_returns (short : node.a.ne 0 + 32 ≤ 2 ^ 32) {y : ℕ} (warp : y < 8)
    (there : (gid.y * packed.grid.x + gid.x) * 8 + y < node.a.ne 1) :
    Returns ⟨packed.sources s0 s1 node, ∅⟩
      ((List.range 32).foldlM (fun q l => do
        let p ← laneSums floats packed.entries s0 s1 (frameAt packed.slot gid.z)
          (warpRow packed.slot.rowGroupsX gid y) l
        return fun j => Function.update (q j) l (p j)) fun _ _ => floats.zero) cells
      fun q m => m = cells ∧ ∀ l < 32, ∀ j : Fin 4, q j l =
        (batchOf floats s0 s1 cells packed node gid.z).lanes floats (node.a.ne 0) (node.b.ne 1)
          ((gid.y * packed.grid.x + gid.x) * 8 + y) l j := by
  have number := toNat_warpRow here warp
  refine Returns.foldlM (fun before q m => m = cells ∧ ∀ l ∈ before, ∀ j : Fin 4, q j l =
    (batchOf floats s0 s1 cells packed node gid.z).lanes floats (node.a.ne 0) (node.b.ne 1)
      ((gid.y * packed.grid.x + gid.x) * 8 + y) l j) ?_
    ⟨rfl, fun l none_ => absurd none_ List.not_mem_nil⟩ ?_
  · rintro before l later split q m ⟨rfl, lanes⟩
    have own : l < 32 := List.mem_range.1 (split ▸ List.mem_append_cons_self)
    refine Returns.look Set.subset_union_left
      (laneSums_returns runs here.toAt (number.trans_lt there) short own) ?_
    refine ⟨rfl, fun l' member j => ?_⟩
    by_cases last : l' = l
    · subst last
      dsimp only
      rw [Function.update_self, number]
    · dsimp only
      rw [Function.update_of_ne last]
      rcases List.mem_append.1 member with earlier | same
      · exact lanes l' earlier j
      · exact absurd (List.mem_singleton.1 same) last
  · exact fun q m kept => ⟨kept.1, fun l own => kept.2 l (List.mem_range.2 own)⟩

/-- The group of a serial sibling leaves its products: its first lanes work. -/
theorem finishes_serialVecs (ready : Ready s0 s1 dst packed node) :
    Finishes (packed.area s0 s1 dst node (vecHome node packed.grid.x) gid)
      (fun t : Fin 32 × Fin 8 => serialVecs floats packed.entries s0 s1 dst
        (frameAt packed.slot gid.z) packed.slot.rowGroupsX gid t.1 t.2) cells
      fun final => ∀ i, node.dst.Holds i → vecHome node packed.grid.x i = gid →
        final (.word dst (node.dst.element i)) =
          vecProductOf floats s0 s1 cells packed node i := by
  have few := here.few
  refine ready.finishes_store (fun t i => t.1.val = 0 ∧ i 0 % 8 = t.2) (packed.sources s0 s1 node)
    (fun _ source => .inr source) (fun t u i mine yours => ?_)
    (fun i _ _ => ⟨(⟨0, by decide⟩, ⟨i 0 % 8, Nat.mod_lt _ (by decide)⟩), rfl, rfl⟩) fun t => ?_
  · exact Prod.ext (Fin.ext (mine.1.trans yours.1.symm)) (Fin.ext (mine.2.symm.trans yours.2))
  · obtain ⟨⟨-, row⟩, -⟩ := guard_vecs runs here t.2.isLt t.1.isLt
    rw [serialVecs]
    split
    next idle =>
      intro i holds home mine
      have none_ := or_iff_not_imp_left.1 idle (not_not.2 mine.1)
      refine absurd none_ ?_
      rw [UInt32.le_iff_toNat_le, not_le, ← UInt32.lt_iff_toNat_lt, row,
        ← row_of_vecHome home mine.2]
      exact (holds 0).trans_eq runs.rows
    next busy =>
      rw [not_or, not_not] at busy
      obtain ⟨first, there⟩ := busy
      rw [UInt32.le_iff_toNat_le, not_le, ← UInt32.lt_iff_toNat_lt, row] at there
      have sums := rowLanes_returns floats s0 s1 cells runs here ready.short t.2.isLt there
      refine Returns.bind (Returns.weaken (sums.mono ?_ (Set.empty_subset _)) ?_)
      · exact Set.union_subset Set.subset_union_left (Set.empty_subset _)
      rintro q m ⟨rfl, lanes⟩
      have guard (j : Fin 4) := (guard_vecs runs here t.2.isLt (j.isLt.trans (by decide))).1.1
      have address (j : Fin 4) (inside : j.val < node.b.ne 1) :=
        toNat_dAt_warp runs here t.2.isLt inside there
      refine (returns_writes (fun _ _ => rfl) (fun j _ inside => ?_)
        (fun i _ j _ inside inside' same => ?_)).weaken ?_
      · rw [guard j] at inside
        rw [address j inside]
        refine ⟨_, runs.d_holds here.batch there inside, vecHome_row here t.2.isLt,
          ⟨first, ?_⟩, rfl⟩
        change ((gid.y * packed.grid.x + gid.x) * 8 + t.2.val) % 8 = t.2
        omega
      · rw [guard i] at inside
        rw [guard j] at inside'
        rw [address i inside, address j inside'] at same
        have columns := congrFun (ready.apart (runs.d_holds here.batch there inside)
          (runs.d_holds here.batch there inside') (Cell.word.inj same).2) 1
        rw [show i = j from Fin.ext columns]
      · rintro - final written i holds home mine
        have inside : i 1 < node.b.ne 1 := (holds 1).trans_eq runs.columns
        let j : Fin 4 := ⟨i 1, by omega⟩
        have at_j := written j (List.mem_finRange j) ((guard j).2 inside)
        have whole := (runs.bIndex_batch holds).2
        have z : node.batch i = gid.z := congrArg Gid.z home
        have row_i := row_of_vecHome home mine.2
        have element : node.bIndex ((gid.y * packed.grid.x + gid.x) * 8 + t.2) j gid.z = i := by
          rw [← row_i, ← z]
          exact whole
        rw [address j inside, element, foldl_columns] at at_j
        rw [at_j, vecProductOf, z, row_i]
        refine tree_congr fun l own => ?_
        rw [lanes l own, Batch.lanes, if_pos inside]

end Group

/-! ## A dispatch -/

section Dispatch

variable {s0 s1 dst : ℕ} {node : Node} {packed : Packed}

/-- The threads of a dispatch for few columns. -/
def Packed.vecKernel (packed : Packed) (s0 s1 dst : ℕ) (g : packed.grid.Groups)
    (t : Fin 32 × Fin 8) : Code Cell F PUnit :=
  vecs floats packed.entries s0 s1 dst (frameAt packed.slot (packed.grid.gid g).z)
    packed.slot.rowGroupsX (packed.grid.gid g) t.1 t.2

/-- The threads of its serial sibling. -/
def Packed.vecSibling (packed : Packed) (s0 s1 dst : ℕ) (g : packed.grid.Groups)
    (t : Fin 32 × Fin 8) : Code Cell F PUnit :=
  serialVecs floats packed.entries s0 s1 dst (frameAt packed.slot (packed.grid.gid g).z)
    packed.slot.rowGroupsX (packed.grid.gid g) t.1 t.2

variable (runs : Runs packed node) (warps : node.vec = true)

include runs warps

/-- The grid of the kernels for few columns: enough groups for the blocks of rows, and less than a
row of groups more. -/
theorem Runs.vecGrid : packed.grid.z = node.b.ne 2 * node.b.ne 3 ∧
    packed.grid.rowGroupsX = packed.grid.x ∧ packed.grid.x ≤ Move.maxGroupsPerDim ∧
      packed.grid.y ≤ Move.maxGroupsPerDim ∧ packed.grid.z ≤ Move.maxGroupsPerDim ∧
        0 < packed.grid.x ∧ (node.a.ne 1 + 7) / 8 ≤ packed.grid.y * packed.grid.x ∧
          packed.grid.y * packed.grid.x < (node.a.ne 1 + 7) / 8 + packed.grid.x := by
  have grid := runs.grid
  simp only [Node.grid, warps, if_true, runs.rows, runs.columns, runs.batches] at grid
  have rows := runs.pos.1 1
  split at grid
  next => cases grid
  next few =>
    let blocks := cdiv (node.a.ne 1) kVecRows
    have some_block : 0 < blocks := Nat.div_pos (by simp only [kVecRows]; omega) (by decide)
    have blocks_eq : blocks = (node.a.ne 1 + 7) / 8 := rfl
    obtain ⟨gx, gx_eq⟩ :
        ∃ gx, (if blocks < Move.maxGroupsPerDim then blocks else Move.maxGroupsPerDim) = gx :=
      ⟨_, rfl⟩
    have columns : gx ≤ Move.maxGroupsPerDim ∧ 0 < gx := by
      rw [← gx_eq]
      split
      next less => exact ⟨less.le, some_block⟩
      next => exact ⟨le_rfl, by decide⟩
    simp only [show cdiv (node.a.ne 1) kVecRows = blocks from rfl, gx_eq] at grid
    split at grid
    next => cases grid
    next inside =>
      obtain grid := (Option.some.inj grid).symm
      have upper : cdiv blocks gx * gx ≤ blocks + gx - 1 := Nat.div_mul_le_self _ _
      have lower : blocks + gx - 1 < cdiv blocks gx * gx + gx := Nat.lt_div_mul_add columns.2
      rw [grid]
      exact ⟨rfl, rfl, columns.1, not_lt.1 inside, not_lt.1 few, columns.2,
        by dsimp only; omega, by dsimp only; omega⟩

theorem Runs.vecAt (ready : Ready s0 s1 dst packed node) (g : packed.grid.Groups) :
    WarpsAt packed node (packed.grid.gid g) := by
  obtain ⟨batches, groups, x, y, z, -, -, few⟩ := runs.vecGrid warps
  have columns := of_decide_eq_true warps
  rw [runs.columns] at columns
  have positive (k : Fin 4) : 0 < node.dst.ne k := by
    fin_cases k
    · exact runs.rows.symm ▸ runs.pos.1 1
    · exact runs.columns.symm ▸ runs.pos.2 1
    · exact runs.batches.1.symm ▸ runs.pos.2 2
    · exact runs.batches.2.symm ▸ runs.pos.2 3
  have rows := ready.apart.ne_le runs.dst positive 0
  rw [runs.rows] at rows
  have number : g.2.1.val * packed.grid.x + packed.grid.x ≤ packed.grid.y * packed.grid.x := by
    rw [← Nat.succ_mul]
    exact Nat.mul_le_mul_right _ g.2.1.isLt
  have inside := g.1.isLt
  exact {
    batch := batches ▸ g.2.2.isLt
    short := g.2.2.isLt.trans_le (z.trans (by decide))
    x := g.1.isLt.trans_le x
    y := g.2.1.isLt.trans_le y
    few := columns
    inside := g.1.isLt
    groups := by
      rw [runs.rowGroupsX, groups]
      exact UInt32.toNat_ofNat_of_lt' (x.trans_lt (by decide))
    room := by
      change (g.2.1.val * packed.grid.x + g.1.val) * 8 + 8 ≤ 2 ^ 32
      simp only [Move.maxGroupsPerDim] at x
      omega }

/-- Every element of the destination has a group. -/
theorem Runs.exists_warp {i : Fin 4 → ℕ} (holds : node.dst.Holds i) :
    ∃ g, packed.grid.gid g = vecHome node packed.grid.x i := by
  obtain ⟨batches, -, -, -, -, columns, covers, -⟩ := runs.vecGrid warps
  have row := (holds 0).trans_eq runs.rows
  have block : i 0 / 8 < packed.grid.y * packed.grid.x := by omega
  have z : node.batch i < packed.grid.z := batches ▸ (runs.bIndex_batch holds).1
  exact ⟨(⟨_, Nat.mod_lt _ columns⟩, ⟨_, Nat.div_lt_of_lt_mul (Nat.mul_comm _ _ ▸ block)⟩,
    ⟨_, z⟩), rfl⟩

/-- In every order of the turns a dispatch for few columns leaves all products. -/
theorem Runs.settles_vecs (ready : Ready s0 s1 dst packed node) (cells : Cell → F) :
    Settles Step ⟨packed.vecKernel floats s0 s1 dst, cells⟩ fun state : State _ _ Cell F =>
      (∀ g t, state.code g t = .done ⟨⟩) ∧
        Done dst node (vecProductOf floats s0 s1 cells packed node) cells state.cells :=
  ready.settles (fun _ holds => runs.exists_warp warps holds) fun g =>
    finishes_vecs runs (runs.vecAt warps ready g) ready

theorem Runs.settles_vecSibling (ready : Ready s0 s1 dst packed node) (cells : Cell → F) :
    Settles Step ⟨packed.vecSibling floats s0 s1 dst, cells⟩ fun state : State _ _ Cell F =>
      (∀ g t, state.code g t = .done ⟨⟩) ∧
        Done dst node (vecProductOf floats s0 s1 cells packed node) cells state.cells :=
  ready.settles (fun _ holds => runs.exists_warp warps holds) fun g =>
    finishes_serialVecs runs (runs.vecAt warps ready g) ready

end Dispatch

end DressOn.Ggml.MatMul
