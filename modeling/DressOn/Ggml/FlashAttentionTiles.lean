import DressOn.Ggml.FlashAttention

/-!
# Attention by tiles

The threads of a group bring sixteen queries, then tile after tile of keys and values, into shared
memory. Each thread takes the scores of its query into what it keeps of its own channels. Between
two barriers a thread stores to its own cells only, so every order of the turns ends with the same
results.
-/

namespace DressOn.Ggml.FlashAttention

open ThreadGroups

variable {F : Type} {floats : Floats F} {node : Node F} {packed : Packed F} {buffers : Buffers}
  {cells m : Cell → F} {gid : Gid} {r l : ℕ} {reads : Set Cell}

/-! ## A tile of a thread -/

theorem addCells_returns {n : ℕ} {cell : Fin n → Cell} {value : Fin n → F}
    (known : ∀ i, cell i ∈ reads ∧ m (cell i) = value i) (x : F) (start : Fin n → F) :
    Returns ⟨reads, ∅⟩ (addCells floats cell x start) m fun sums m' =>
      sums = (fun i => floats.add (start i) (floats.mul x (value i))) ∧ m' = m := by
  refine Returns.components (fun i sum => do
    let y ← Code.read (cell i)
    return floats.add sum (floats.mul x y)) _ fun i => ?_
  refine Returns.read (.inl (known i).1) ⟨?_, rfl⟩
  rw [(known i).2]

section Weigh

variable {scores : ℕ → F} (scored : ∀ j < 32, .s gid r j ∈ reads ∧ m (.s gid r j) = scores j)

include scored

theorem largest_returns (start : F) :
    Returns ⟨reads, ∅⟩ (largest floats gid r start) m fun value m' =>
      value = (List.range 32).foldl (fun mt j => floats.max mt (scores j)) start ∧ m' = m := by
  refine Returns.foldlM (fun before mt m' =>
    mt = before.foldl (fun mt j => floats.max mt (scores j)) start ∧ m' = m) ?_ ⟨rfl, rfl⟩
    fun _ _ ends => ends
  rintro before j later split mt m' ⟨rfl, rfl⟩
  obtain ⟨known, score_eq⟩ := scored j (List.mem_range.1 (split ▸ List.mem_append_cons_self))
  refine Returns.read (.inl known) ⟨?_, rfl⟩
  rw [score_eq, List.foldl_append]
  rfl

variable {n : ℕ} {values : ℕ → ℕ → F}
  (valued : ∀ j < 32, ∀ i : Fin n,
    .v gid j (l + 8 * i) ∈ reads ∧ m (.v gid j (l + 8 * i)) = values j (l + 8 * i))

include valued

theorem accumulate_returns (mt : F) (start : F × (Fin n → F)) :
    Returns ⟨reads, ∅⟩ (accumulate floats gid r l mt start) m fun sums m' =>
      sums = ((List.range 32).foldl
          (fun ps j => floats.add ps (floats.exp (floats.sub (scores j) mt))) start.1,
        fun i : Fin n => (List.range 32).foldl (fun a j => floats.add a
          (floats.mul (floats.exp (floats.sub (scores j) mt)) (values j (l + 8 * i))))
          (start.2 i)) ∧ m' = m := by
  refine Returns.foldlM (fun before sums m' =>
    sums = (before.foldl
        (fun ps j => floats.add ps (floats.exp (floats.sub (scores j) mt))) start.1,
      fun i : Fin n => before.foldl (fun a j => floats.add a
        (floats.mul (floats.exp (floats.sub (scores j) mt)) (values j (l + 8 * i))))
        (start.2 i)) ∧ m' = m) ?_ ⟨rfl, rfl⟩ fun _ _ ends => ends
  rintro before j later split sums m' ⟨rfl, rfl⟩
  have low : j < 32 := List.mem_range.1 (split ▸ List.mem_append_cons_self)
  obtain ⟨known, score_eq⟩ := scored j low
  refine Returns.read (.inl known) ?_
  rw [score_eq]
  refine Returns.look Set.subset_union_left (addCells_returns (valued j low) _ _) ⟨?_, rfl⟩
  simp only [List.foldl_append, List.foldl_cons, List.foldl_nil]

variable (scores values) in
/-- A thread takes the scores of its query into its channels. -/
theorem weigh_returns (part : Part F ℕ) :
    Returns ⟨reads, ∅⟩ (weigh floats gid r l (part.of fun i : Fin n => l + 8 * i)) m
      fun result m' => result = (part.take floats scores fun j p c a =>
        floats.add a (floats.mul p (values j c))).of (fun i : Fin n => l + 8 * i) ∧ m' = m := by
  refine Returns.look Set.subset_union_left (largest_returns scored part.m) ?_
  refine Returns.look Set.subset_union_left (accumulate_returns scored valued _ _) ?_
  exact ⟨rfl, rfl⟩

end Weigh

/-- A thread's dot products with four keys of a tile. -/
theorem dots_returns (q : ℕ → F) (keys : ℕ → ℕ → F)
    (queried : ∀ c < packed.depth.channels, .q gid r c ∈ reads ∧ m (.q gid r c) = q c)
    (keyed : ∀ p : Fin 4, ∀ c < packed.depth.channels,
      .k gid (l + 8 * p) c ∈ reads ∧ m (.k gid (l + 8 * p) c) = keys (l + 8 * p) c) :
    Returns ⟨reads, ∅⟩ (dots floats packed gid r l) m fun d m' =>
      d = (fun p : Fin 4 => (List.range packed.depth.channels).foldl (fun dot c =>
        floats.add dot (floats.mul (q c) (keys (l + 8 * p) c))) floats.zero) ∧ m' = m := by
  refine Returns.foldlM (fun before d m' => d = (fun p : Fin 4 => before.foldl (fun dot c =>
    floats.add dot (floats.mul (q c) (keys (l + 8 * p) c))) floats.zero) ∧ m' = m) ?_ ⟨rfl, rfl⟩
    fun _ _ ends => ends
  rintro before c later split d m' ⟨rfl, rfl⟩
  have low : c < packed.depth.channels :=
    List.mem_range.1 (split ▸ List.mem_append_cons_self)
  obtain ⟨known, query_eq⟩ := queried c low
  refine Returns.read (.inl known) ?_
  rw [query_eq]
  refine (addCells_returns (fun p => keyed p c low) _ _).weaken ?_
  rintro d m' ⟨rfl, rfl⟩
  refine ⟨?_, rfl⟩
  simp only [List.foldl_append, List.foldl_cons, List.foldl_nil]

/-! ## The cells of a group -/

/-- What a group runs under: it has a block of queries of a head and a batch. -/
structure GroupAt (node : Node F) (gid : Gid) : Prop where
  block : gid.x < 65536
  head : gid.y < node.q.ne 2
  batch : gid.z < node.q.ne 3

section Group

variable (floats node packed buffers cells gid)

/-- What a query of a group is computed from; a query past the last one is zero. -/
def groupInputs (r : ℕ) : Inputs F where
  q c :=
    if gid.x * 16 + r < node.q.ne 1 then
      (inputsOf floats node packed buffers cells (gid.x * 16 + r) gid.y gid.z).q c
    else floats.zero
  k := (inputsOf floats node packed buffers cells (gid.x * 16 + r) gid.y gid.z).k
  v := (inputsOf floats node packed buffers cells (gid.x * 16 + r) gid.y gid.z).v

/-- What shared memory holds when the scores of a tile are taken. -/
def content (tt : ℕ) : Cell → F
  | .q _ r c => (groupInputs floats node packed buffers cells gid r).q c
  | .k _ j c =>
      if tt * 32 + j < node.k.ne 1 then
        (groupInputs floats node packed buffers cells gid 0).k (tt * 32 + j) c
      else floats.zero
  | .v _ j c =>
      if tt * 32 + j < node.k.ne 1 then
        (groupInputs floats node packed buffers cells gid 0).v (tt * 32 + j) c
      else floats.zero
  | .s _ r j =>
      score floats packed (groupInputs floats node packed buffers cells gid r) (node.k.ne 1)
        (tt * 32 + j)
  | .word _ _ => floats.zero

/-- What the dot products are taken from. -/
def queriesAndKeys : Set Cell := {place | ∃ r c, place = .q gid r c ∨ place = .k gid r c}

/-- What a tile is weighed from. -/
def scoresAndValues : Set Cell := {place | ∃ r c, place = .s gid r c ∨ place = .v gid r c}

/-- The thread that brings an element of a query. -/
def queryOwner : Cell → Option (Fin 128)
  | .q g r c =>
      if g = gid ∧ r < 16 ∧ c < packed.depth.channels then some (Fin.ofNat 128 (r * 8 + c % 8))
      else none
  | _ => none

/-- The thread that brings an element of a tile. -/
def tileOwner : Cell → Option (Fin 128)
  | .k g j c | .v g j c =>
      if g = gid ∧ j < 32 ∧ c < packed.depth.channels then
        some (Fin.ofNat 128 (j * packed.depth.channels + c))
      else none
  | _ => none

/-- The thread that takes a score. -/
def scoreOwner : Cell → Option (Fin 128)
  | .s g r j =>
      if g = gid ∧ r < 16 ∧ j < 32 then some (Fin.ofNat 128 (r * 8 + j % 8)) else none
  | _ => none

/-- The group of a result. -/
def groupOf (i : Fin 4 → ℕ) : Gid := ⟨i 2 / 16, i 1, i 3⟩

/-- The group of a cell. -/
noncomputable def home : Cell → Option Gid
  | .q g .. | .k g .. | .v g .. | .s g .. => some g
  | .word buffer index =>
      if buffer = buffers.dst then (indexAt node.dst index).map groupOf else none

/-- The thread that stores a result. -/
noncomputable def resultOwner : Cell → Option (Fin 128)
  | .word buffer index =>
      if buffer = buffers.dst then
        (indexAt node.dst index).bind fun i =>
          if groupOf i = gid then some (Fin.ofNat 128 (i 2 % 16 * 8 + i 0 % 8)) else none
      else none
  | _ => none

/-- What the words of the results hold in the end. -/
noncomputable def resultContent (plus : Inputs F → ℕ → ℕ → F → ℕ → F → F) : Cell → F
  | .word _ index =>
      (indexAt node.dst index).elim floats.zero (resultOf floats node packed buffers plus cells)
  | _ => floats.zero

/-- The part that a thread keeps after some tiles. -/
def threadPart (t : Fin 128) (n : ℕ) : Part F (Fin packed.depth.perThread) :=
  let inputs := groupInputs floats node packed buffers cells gid (t / 8)
  (partAfter floats packed inputs (node.k.ne 1) (plusPadded floats inputs (node.k.ne 1)) n).of
    fun i => t % 8 + 8 * i

/-- The sources are as at the start, and the queries are in shared memory. -/
structure Loaded (m : Cell → F) : Prop where
  sources : ∀ place ∈ sources node packed buffers, m place = cells place
  queries : ∀ r < 16, ∀ c < packed.depth.channels,
    m (.q gid r c) = (groupInputs floats node packed buffers cells gid r).q c

/-- The values and the scores of a tile are in shared memory too. -/
structure Scored (tt : ℕ) (m : Cell → F) : Prop extends
    Loaded floats node packed buffers cells gid m where
  values : ∀ j < 32, ∀ c < packed.depth.channels,
    m (.v gid j c) = content floats node packed buffers cells gid tt (.v gid j c)
  scores : ∀ r < 16, ∀ j < 32,
    m (.s gid r j) = content floats node packed buffers cells gid tt (.s gid r j)

end Group

/-- A load under its guard. -/
theorem loadIf_returns {there : Bool} {code : Code Cell F F} {value : F}
    (loads : there = true → Returns ⟨reads, ∅⟩ code m fun v m' => v = value ∧ m' = m) :
    Returns ⟨reads, ∅⟩ (loadIf floats there code) m fun v m' =>
      v = (if there = true then value else floats.zero) ∧ m' = m := by
  cases there with
  | true => exact loads rfl
  | false => exact ⟨rfl, rfl⟩

/-- A thread comes to each of its elements of a tile in one of its turns. -/
theorem exists_turn_of_tile {depth : Depth} {t : Fin 128} {j c : ℕ} (low : j < 32)
    (channel : c < depth.channels) (number : (j * depth.channels + c) % 128 = t.val) :
    ∃ i ∈ List.range (2 * depth.perThread),
      (t.val + i * 128) / depth.channels = j ∧ (t.val + i * 128) % depth.channels = c := by
  have wide : 0 < depth.channels := (Nat.zero_le c).trans_lt channel
  have whole : t.val + (j * depth.channels + c) / 128 * 128 = j * depth.channels + c := by omega
  have upper : j * depth.channels + c < 32 * depth.channels := by
    have := Nat.mul_le_mul_right depth.channels (Nat.le_of_lt_succ low)
    omega
  refine ⟨(j * depth.channels + c) / 128, List.mem_range.2 ?_, ?_, ?_⟩
  · rw [Depth.channels] at upper
    rw [Nat.div_lt_iff_lt_mul (by decide), Depth.channels]
    omega
  · rw [whole, Nat.add_comm, Nat.add_mul_div_right _ _ wide, Nat.div_eq_of_lt channel,
      Nat.zero_add]
  · rw [whole, Nat.add_comm, Nat.add_mul_mod_self_right, Nat.mod_eq_of_lt channel]

section Stages

/-- The query of a thread does not wrap. -/
theorem toNat_queryNumber (here : GroupAt node gid) (low : r < 16) : (queryNumber gid r).toNat = gid.x * 16 + r := by
  have block := here.block
  rw [queryNumber, UInt32.toNat_add, UInt32.toNat_mul, UInt32.toNat_ofNat', UInt32.toNat_ofNat']
  change (gid.x % 2 ^ 32 * 16 % 2 ^ 32 + r % 2 ^ 32) % 2 ^ 32 = gid.x * 16 + r
  omega

variable (runs : Runs floats packed node) (here : GroupAt node gid)

include runs here

theorem toNat_head : (UInt32.ofNat gid.y).toNat = gid.y ∧ (UInt32.ofNat gid.z).toNat = gid.z := by
  have small (d : Fin 4) : node.q.ne d < UInt32.size := (runs.small d).trans_lt (by decide)
  exact ⟨UInt32.toNat_ofNat_of_lt' (here.head.trans (small 2)),
    UInt32.toNat_ofNat_of_lt' (here.batch.trans (small 3))⟩

theorem valid_iff (low : r < 16) : valid packed gid r = true ↔ gid.x * 16 + r < node.q.ne 1 := by
  rw [valid, decide_eq_true_iff, UInt32.lt_iff_toNat_lt, toNat_queryNumber here low,
    runs.src0.ne]

variable (t : Fin 128) (same : ∀ place ∈ sources node packed buffers, m place = cells place)

include same

/-- A thread brings its elements of a query. -/
theorem bringQuery_returns :
    Returns ⟨sources node packed buffers, {cell | queryOwner packed gid cell = some t}⟩
      (bringQuery floats packed buffers gid (t / 8) (t % 8)) m fun _ m' =>
        ∀ cell, queryOwner packed gid cell = some t →
          m' cell = content floats node packed buffers cells gid 0 cell := by
  have row : t.val / 8 < 16 := by omega
  refine (returns_fills (content floats node packed buffers cells gid 0)
    (fun i => {.q gid (t / 8) (t % 8 + i * 8)}) ?_ ?_).weaken ?_
  · rintro i - cell rfl (⟨j, -, wrong⟩ | ⟨j, -, wrong⟩ | ⟨j, -, wrong⟩) <;> cases wrong
  · intro i listed m' kept
    have lane := List.mem_range.1 listed
    have channel : t.val % 8 + i * 8 < packed.depth.channels := by
      rw [Depth.channels]
      omega
    refine Returns.look Set.subset_union_left (loadIf_returns fun there =>
      loadQuery_returns (fun place source => (kept place source).trans (same place source)) runs
        ⟨(valid_iff runs here row).1 there, here.head, here.batch⟩ channel
        ⟨toNat_queryNumber here row, toNat_head runs here⟩) ?_
    refine Returns.write ?_ ⟨fun cell other => Function.update_of_ne other _ _, ?_⟩
    · change (if _ then _ else _) = _
      rw [if_pos ⟨rfl, row, channel⟩]
      refine congrArg some (Fin.ext ?_)
      change (t.val / 8 * 8 + (t.val % 8 + i * 8) % 8) % 128 = t.val
      omega
    · rintro cell rfl
      rw [Function.update_self]
      exact if_congr (valid_iff runs here row) rfl rfl
  · rintro - m' filled cell mine
    cases cell with
    | q g r c =>
        rw [queryOwner] at mine
        split at mine
        next inside =>
          obtain ⟨rfl, low, channel⟩ := inside
          have number : (r * 8 + c % 8) % 128 = t.val := congrArg Fin.val (Option.some.inj mine)
          rw [Depth.channels] at channel
          refine filled (c / 8) (List.mem_range.2 (by omega)) _ ?_
          rw [Set.mem_singleton_iff, show t.val / 8 = r by omega,
            show t.val % 8 + c / 8 * 8 = c by omega]
        next => cases mine
    | k g j c => cases mine
    | v g j c => cases mine
    | s g r j => cases mine
    | word buffer index => cases mine

/-- A thread brings its elements of a tile. -/
theorem bringTile_returns {tt : ℕ} (tile : tt < tiles packed) :
    Returns ⟨sources node packed buffers, {cell | tileOwner packed gid cell = some t}⟩
      (bringTile floats packed buffers gid (t / 8) (t % 8) tt) m fun _ m' =>
        ∀ cell, tileOwner packed gid cell = some t →
          m' cell = content floats node packed buffers cells gid tt cell := by
  have wide : 0 < packed.depth.channels := by cases packed.depth <;> decide
  have number (i : ℕ) : t.val / 8 * 8 + t.val % 8 + i * 128 = t.val + i * 128 := by omega
  have own (i j c : ℕ) (split : t.val + i * 128 = j * packed.depth.channels + c) :
      Fin.ofNat 128 (j * packed.depth.channels + c) = t := by
    refine Fin.ext ?_
    change (j * packed.depth.channels + c) % 128 = t.val
    omega
  refine (returns_fills (content floats node packed buffers cells gid tt)
    (fun i => {.k gid ((t + i * 128) / packed.depth.channels)
      ((t + i * 128) % packed.depth.channels), .v gid ((t + i * 128) / packed.depth.channels)
      ((t + i * 128) % packed.depth.channels)}) ?_ ?_).weaken ?_
  · rintro i - cell (rfl | rfl) (⟨j, -, wrong⟩ | ⟨j, -, wrong⟩ | ⟨j, -, wrong⟩) <;> cases wrong
  · intro i listed m' kept
    have turn := List.mem_range.1 listed
    simp only [number]
    obtain ⟨j, j_eq⟩ : ∃ j, (t.val + i * 128) / packed.depth.channels = j := ⟨_, rfl⟩
    obtain ⟨c, c_eq⟩ : ∃ c, (t.val + i * 128) % packed.depth.channels = c := ⟨_, rfl⟩
    rw [j_eq, c_eq]
    have channel : c < packed.depth.channels := c_eq ▸ Nat.mod_lt _ wide
    have low : j < 32 := by
      rw [← j_eq, Nat.div_lt_iff_lt_mul wide, Depth.channels]
      omega
    have split : t.val + i * 128 = j * packed.depth.channels + c := by
      rw [← j_eq, ← c_eq, Nat.div_add_mod']
    have source (place : Cell) (known : place ∈ sources node packed buffers) :
        m' place = cells place := (kept place known).trans (same place known)
    have guard := runs.key_lt_iff tile low
    have inside : gid.y < node.q.ne 2 ∧ gid.z < node.q.ne 3 := ⟨here.head, here.batch⟩
    refine Returns.look Set.subset_union_left (loadIf_returns fun there =>
      loadKey_returns source runs inside (guard.1 (of_decide_eq_true there)) channel
        (toNat_head runs here) (runs.toNat_key tile low) (gid.x * 16 + 0)) ?_
    refine Returns.look Set.subset_union_left (loadIf_returns fun there =>
      loadValue_returns source runs inside (guard.1 (of_decide_eq_true there)) channel
        (toNat_head runs here) (runs.toNat_key tile low) (gid.x * 16 + 0)) ?_
    have mine : (if gid = gid ∧ j < 32 ∧ c < packed.depth.channels then
        some (Fin.ofNat 128 (j * packed.depth.channels + c)) else none) = some t := by
      rw [if_pos ⟨rfl, low, channel⟩, own i j c split]
    refine Returns.write mine (Returns.write mine ⟨fun cell other => ?_, ?_⟩)
    · rw [Function.update_of_ne fun equal => other (.inr equal),
        Function.update_of_ne fun equal => other (.inl equal)]
    · rintro cell (rfl | rfl)
      · rw [Function.update_of_ne (by exact Cell.noConfusion), Function.update_self]
        exact if_congr (decide_eq_true_iff.trans guard) rfl rfl
      · rw [Function.update_self]
        exact if_congr (decide_eq_true_iff.trans guard) rfl rfl
  · rintro - m' filled cell mine
    cases cell with
    | q g r c => cases mine
    | k g j c =>
        rw [tileOwner] at mine
        split at mine
        next inside =>
          obtain ⟨rfl, inside⟩ := inside
          obtain ⟨i, listed, j_eq, c_eq⟩ := exists_turn_of_tile inside.1 inside.2
            (congrArg Fin.val (Option.some.inj mine))
          exact filled i listed _ (.inl (by rw [j_eq, c_eq]))
        next => cases mine
    | v g j c =>
        rw [tileOwner] at mine
        split at mine
        next inside =>
          obtain ⟨rfl, inside⟩ := inside
          obtain ⟨i, listed, j_eq, c_eq⟩ := exists_turn_of_tile inside.1 inside.2
            (congrArg Fin.val (Option.some.inj mine))
          exact filled i listed _ (.inr (by rw [j_eq, c_eq]; rfl))
        next => cases mine
    | s g r j => cases mine
    | word buffer index => cases mine

end Stages

section Group

/-- A thread takes the scores of a tile into its part. -/
theorem weigh_tile (t : Fin 128) {tt : ℕ}
    (scored : Scored floats node packed buffers cells gid tt m) :
    Returns ⟨scoresAndValues gid, ∅⟩
      (weigh floats gid (t / 8) (t % 8)
        (threadPart floats node packed buffers cells gid t tt)) m fun part m' =>
      part = threadPart floats node packed buffers cells gid t (tt + 1) ∧ m' = m := by
  have row : t.val / 8 < 16 := by omega
  have channel (i : Fin packed.depth.perThread) :
      t.val % 8 + 8 * i < packed.depth.channels := by
    rw [Depth.channels]
    omega
  have taken (j : ℕ) (low : j < 32) : .s gid (t / 8) j ∈ scoresAndValues gid ∧
      m (.s gid (t / 8) j) =
        content floats node packed buffers cells gid tt (.s gid (t / 8) j) :=
    ⟨⟨_, j, .inl rfl⟩, scored.scores _ row j low⟩
  have valued (j : ℕ) (low : j < 32) (i : Fin packed.depth.perThread) :
      .v gid j (t % 8 + 8 * i) ∈ scoresAndValues gid ∧ m (.v gid j (t % 8 + 8 * i)) =
        content floats node packed buffers cells gid tt (.v gid j (t % 8 + 8 * i)) :=
    ⟨⟨j, _, .inr rfl⟩, scored.values j low _ (channel i)⟩
  refine (weigh_returns
    (fun j => content floats node packed buffers cells gid tt (.s gid (t / 8) j)) taken
    (fun j c => content floats node packed buffers cells gid tt (.v gid j c)) valued _).weaken ?_
  rintro part m' ⟨rfl, rfl⟩
  refine ⟨?_, rfl⟩
  rw [threadPart, partAfter_succ]
  rfl

variable (runs : Runs floats packed node) (here : GroupAt node gid)

include runs here

/-- A thread takes its scores. -/
theorem takeScores_returns (t : Fin 128) {tt : ℕ} (tile : tt < tiles packed)
    (loaded : Loaded floats node packed buffers cells gid m)
    (keys : ∀ j < 32, ∀ c < packed.depth.channels,
      m (.k gid j c) = content floats node packed buffers cells gid tt (.k gid j c)) :
    Returns ⟨queriesAndKeys gid,
        {cell | scoreOwner gid cell = some t}⟩
      (takeScores floats packed gid (t / 8) (t % 8) tt) m fun _ m' =>
        ∀ cell, scoreOwner gid cell = some t →
          m' cell = content floats node packed buffers cells gid tt cell := by
  have row : t.val / 8 < 16 := by omega
  have low (p : Fin 4) : t.val % 8 + 8 * p < 32 := by omega
  have queried (c : ℕ) (channel : c < packed.depth.channels) :
      .q gid (t / 8) c ∈ queriesAndKeys gid ∧ m (.q gid (t / 8) c) =
        (groupInputs floats node packed buffers cells gid (t / 8)).q c :=
    ⟨⟨_, c, .inl rfl⟩, loaded.queries _ row c channel⟩
  have keyed (p : Fin 4) (c : ℕ) (channel : c < packed.depth.channels) :
      .k gid (t % 8 + 8 * p) c ∈ queriesAndKeys gid ∧ m (.k gid (t % 8 + 8 * p) c) =
        content floats node packed buffers cells gid tt (.k gid (t % 8 + 8 * p) c) :=
    ⟨⟨_, c, .inr rfl⟩, keys _ (low p) c channel⟩
  refine Returns.look Set.subset_union_left (dots_returns
    (groupInputs floats node packed buffers cells gid (t / 8)).q
    (fun j c => content floats node packed buffers cells gid tt (.k gid j c)) queried keyed) ?_
  refine (returns_fills (content floats node packed buffers cells gid tt)
    (fun p : Fin 4 => {.s gid (t / 8) (t % 8 + 8 * p)}) ?_ ?_).weaken ?_
  · rintro p - cell rfl ⟨r, c, wrong | wrong⟩ <;> cases wrong
  · rintro p - m' -
    refine ⟨?_, fun cell other => Function.update_of_ne other _ _, ?_⟩
    · change (if _ then _ else _) = _
      rw [if_pos ⟨rfl, row, low p⟩]
      refine congrArg some (Fin.ext ?_)
      change (t.val / 8 * 8 + (t.val % 8 + 8 * p.val) % 8) % 128 = t.val
      omega
    · rintro cell rfl
      rw [Function.update_self]
      have guard := runs.key_lt_iff tile (low p)
      by_cases there : tt * 32 + (t.val % 8 + 8 * p) < node.k.ne 1
      · rw [if_neg (UInt32.not_le.2 (guard.2 there))]
        change _ = score floats packed _ _ _
        rw [score, if_pos there]
        simp only [content, if_pos there]
        rfl
      · rw [if_pos (UInt32.not_lt.1 (mt guard.1 there))]
        change _ = score floats packed _ _ _
        rw [score, if_neg there]
  · rintro - m' filled cell mine
    cases cell with
    | s g r j =>
        rw [scoreOwner] at mine
        split at mine
        next inside =>
          obtain ⟨rfl, low, few⟩ := inside
          have number : (r * 8 + j % 8) % 128 = t.val := congrArg Fin.val (Option.some.inj mine)
          let p : Fin 4 := ⟨j / 8, by omega⟩
          refine filled p (List.mem_finRange p) _ ?_
          rw [Set.mem_singleton_iff, show t.val / 8 = r by omega,
            show t.val % 8 + 8 * p.val = j by simp only [p]; omega]
        next => cases mine
    | q g r c => cases mine
    | k g j c => cases mine
    | v g j c => cases mine
    | word buffer index => cases mine

omit runs here in
/-- The sources are no group's. -/
theorem home_of_source (ready : Ready node packed buffers) :
    ∀ place ∈ sources node packed buffers, home node buffers place = none := by
  intro place source
  cases place with
  | word buffer index =>
      rw [home]
      split
      next bound =>
        subst bound
        rw [Option.map_eq_none_iff]
        refine indexAt_eq_none fun i holds same => ?_
        exact ready.spares i holds (same ▸ source)
      next => rfl
  | q g r c => rcases source with ⟨j, -, wrong⟩ | ⟨j, -, wrong⟩ | ⟨j, -, wrong⟩ <;> cases wrong
  | k g r c => rcases source with ⟨j, -, wrong⟩ | ⟨j, -, wrong⟩ | ⟨j, -, wrong⟩ <;> cases wrong
  | v g r c => rcases source with ⟨j, -, wrong⟩ | ⟨j, -, wrong⟩ | ⟨j, -, wrong⟩ <;> cases wrong
  | s g r c => rcases source with ⟨j, -, wrong⟩ | ⟨j, -, wrong⟩ | ⟨j, -, wrong⟩ <;> cases wrong

/-- A tile of all threads, after what they did since the barrier before. -/
theorem finishes_turn {tt : ℕ} (tile : tt < tiles packed)
    {pre : Fin 128 → Code Cell F (Part F (Fin packed.depth.perThread))}
    {next : Fin 128 → Part F (Fin packed.depth.perThread) → Code Cell F PUnit}
    {value : Fin 128 → Part F (Fin packed.depth.perThread)} {owner : Cell → Option (Fin 128)}
    {held : Cell → F} {post : (Cell → F) → Prop}
    (known : reads ⊆ {cell | cell ∈ sources node packed buffers ∨
      home node buffers cell = some gid})
    (own : ∀ cell i, owner cell = some i → home node buffers cell = some gid)
    (unowned : ∀ cell ∈ reads, owner cell = none)
    (returns : ∀ t, Returns ⟨reads, {cell | owner cell = some t}⟩ (pre t) m fun part m' =>
      part = value t ∧ ∀ cell, owner cell = some t → m' cell = held cell)
    (loaded : Loaded floats node packed buffers cells gid (owned owner held m))
    (later : ∀ m', Scored floats node packed buffers cells gid tt m' →
      Finishes ⟨sources node packed buffers, {cell | home node buffers cell = some gid}⟩
        (fun t : Fin 128 => weigh floats gid (t / 8) (t % 8) (value t) >>= next t) m' post) :
    Finishes ⟨sources node packed buffers, {cell | home node buffers cell = some gid}⟩
      (fun t : Fin 128 => pre t >>= fun part =>
        turn floats packed buffers gid (t / 8) (t % 8) part tt >>= next t) m post := by
  simp only [turn, bind_assoc]
  refine Finishes.fill owner held value known own unowned returns ?_
  obtain ⟨m₁, m₁_eq⟩ : ∃ m₁, owned owner held m = m₁ := ⟨_, rfl⟩
  rw [m₁_eq] at loaded ⊢
  -- the tile is brought
  refine Finishes.fill (tileOwner packed gid)
    (content floats node packed buffers cells gid tt) (fun _ => ⟨⟩) Set.subset_union_left
    (fun cell t mine => ?_) (fun cell source => ?_) (fun t => (bringTile_returns runs here t loaded.sources tile).weaken
      fun _ m' filled => ⟨rfl, filled⟩) ?_
  · cases cell with
    | k g j c =>
        rw [tileOwner] at mine
        split at mine
        next inside => exact congrArg some inside.1
        next => cases mine
    | v g j c =>
        rw [tileOwner] at mine
        split at mine
        next inside => exact congrArg some inside.1
        next => cases mine
    | q g r c => cases mine
    | s g r j => cases mine
    | word buffer index => cases mine
  · rcases source with ⟨j, -, rfl⟩ | ⟨j, -, rfl⟩ | ⟨j, -, rfl⟩ <;> rfl
  obtain ⟨m₂, m₂_eq⟩ : ∃ m₂, owned (tileOwner packed gid)
    (content floats node packed buffers cells gid tt) m₁ = m₂ := ⟨_, rfl⟩
  rw [m₂_eq]
  have tiled (cell : Cell) (t : Fin 128) (mine : tileOwner packed gid cell = some t) :
      m₂ cell = content floats node packed buffers cells gid tt cell :=
    m₂_eq ▸ owned_of_some mine
  have untiled (cell : Cell) (other : tileOwner packed gid cell = none) : m₂ cell = m₁ cell :=
    m₂_eq ▸ owned_of_none other
  have loaded₂ : Loaded floats node packed buffers cells gid m₂ := by
    refine ⟨fun place source => (untiled place ?_).trans (loaded.sources place source),
      fun r low c channel => (untiled _ rfl).trans (loaded.queries r low c channel)⟩
    rcases source with ⟨j, -, rfl⟩ | ⟨j, -, rfl⟩ | ⟨j, -, rfl⟩ <;> rfl
  -- the scores are taken
  refine Finishes.fill (scoreOwner gid) (content floats node packed buffers cells gid tt)
    (fun _ => ⟨⟩) (fun cell source => ?_) (fun cell t mine => ?_) (fun cell source => ?_) (fun t => (takeScores_returns runs here t tile loaded₂
      fun j low c channel => tiled _ _ (if_pos ⟨rfl, low, channel⟩)).weaken
      fun _ m' filled => ⟨rfl, filled⟩) ?_
  · obtain ⟨r, c, rfl | rfl⟩ := source <;> exact .inr rfl
  · cases cell with
    | s g r j =>
        rw [scoreOwner] at mine
        split at mine
        next inside => exact congrArg some inside.1
        next => cases mine
    | q g r c => cases mine
    | k g j c => cases mine
    | v g j c => cases mine
    | word buffer index => cases mine
  · obtain ⟨r, c, rfl | rfl⟩ := source <;> rfl
  refine later _ ⟨⟨fun place source => ?_, fun r low c channel => ?_⟩,
    fun j low c channel => ?_, fun r low j few => ?_⟩
  · refine (owned_of_none ?_).trans (loaded₂.sources place source)
    rcases source with ⟨j, -, rfl⟩ | ⟨j, -, rfl⟩ | ⟨j, -, rfl⟩ <;> rfl
  · exact (owned_of_none rfl).trans (loaded₂.queries r low c channel)
  · exact (owned_of_none rfl).trans (tiled _ _ (if_pos ⟨rfl, low, channel⟩))
  · exact owned_of_some (if_pos ⟨rfl, low, few⟩)

end Group

section Results

variable (runs : Runs floats packed node) (here : GroupAt node gid)

include runs

/-- The result that a thread of a group stores to a cell. -/
theorem resultOwner_eq_some {t : Fin 128} {cell : Cell}
    (mine : resultOwner node buffers gid cell = some t) :
    ∃ c < packed.depth.channels, c % 8 = t.val % 8 ∧ gid.x * 16 + t / 8 < node.q.ne 1 ∧
      cell = .word buffers.dst (node.dst.element ![c, gid.y, gid.x * 16 + t / 8, gid.z]) := by
  cases cell with
  | word buffer index =>
      rw [resultOwner] at mine
      split at mine
      next bound =>
        obtain ⟨i, found, mine⟩ := Option.bind_eq_some_iff.1 mine
        split at mine
        next group =>
          have number : (i 2 % 16 * 8 + i 0 % 8) % 128 = t.val :=
            congrArg Fin.val (Option.some.inj mine)
          have block : i 2 / 16 = gid.x := congrArg Gid.x group
          have head : i 1 = gid.y := congrArg Gid.y group
          have batch : i 3 = gid.z := congrArg Gid.z group
          obtain ⟨holds, address⟩ := indexAt_eq_some found
          obtain ⟨channel, query, -⟩ := runs.query_lt holds
          have query_eq : gid.x * 16 + t / 8 = i 2 := by omega
          refine ⟨i 0, channel, by omega, query_eq ▸ query, ?_⟩
          have index_eq : ![i 0, gid.y, gid.x * 16 + t / 8, gid.z] = i := by
            funext d
            fin_cases d
            · rfl
            · exact head.symm
            · exact query_eq
            · exact batch.symm
          rw [bound, index_eq, address]
        next => cases mine
      next => cases mine
  | q g r c => cases mine
  | k g j c => cases mine
  | v g j c => cases mine
  | s g r j => cases mine

include here

variable (ready : Ready node packed buffers)

include ready

/-- A thread stores its results. -/
theorem storeResults_returns (t : Fin 128) :
    Returns ⟨scoresAndValues gid,
        {cell | resultOwner node buffers gid cell = some t}⟩
      (storeResults floats packed buffers gid (t / 8) (t % 8)
        (threadPart floats node packed buffers cells gid t (tiles packed))) m fun _ m' =>
      ∀ cell, resultOwner node buffers gid cell = some t →
        m' cell = resultContent floats node packed buffers cells (plusPadded floats) cell := by
  have row : t.val / 8 < 16 := by omega
  rw [storeResults]
  split
  next there =>
    have inside : gid.x * 16 + t / 8 < node.q.ne 1 ∧ gid.y < node.q.ne 2 ∧ gid.z < node.q.ne 3 :=
      ⟨(valid_iff runs here row).1 there, here.head, here.batch⟩
    have channel (i : Fin packed.depth.perThread) :
        t.val % 8 + 8 * i < packed.depth.channels := by
      rw [Depth.channels]
      omega
    have place (i : Fin packed.depth.perThread) := runs.target_eq (channel i) inside
      ⟨toNat_queryNumber here row, toNat_head runs here⟩ buffers
    have found (i : Fin packed.depth.perThread) :=
      indexAt_element ready.apart (runs.dst_holds (channel i) inside)
    have inputs_eq : groupInputs floats node packed buffers cells gid (t / 8) =
        inputsOf floats node packed buffers cells (gid.x * 16 + t / 8) gid.y gid.z := by
      simp only [groupInputs, if_pos inside.1]
    refine (returns_fills (resultContent floats node packed buffers cells (plusPadded floats))
      (fun i : Fin packed.depth.perThread => {target packed buffers (queryNumber gid (t / 8))
        (UInt32.ofNat gid.y) (UInt32.ofNat gid.z) (t % 8 + 8 * i)}) ?_ ?_).weaken ?_
    · rintro i - cell rfl ⟨r, c, wrong | wrong⟩ <;> exact Cell.noConfusion wrong
    · rintro i - m' -
      refine ⟨?_, fun cell other => Function.update_of_ne other _ _, ?_⟩
      · rw [place i]
        change resultOwner node buffers gid _ = some t
        have group : groupOf ![t.val % 8 + 8 * i, gid.y, gid.x * 16 + t / 8, gid.z] = gid := by
          change (⟨(gid.x * 16 + t / 8) / 16, gid.y, gid.z⟩ : Gid) = gid
          rw [show (gid.x * 16 + t.val / 8) / 16 = gid.x by omega]
        rw [resultOwner, if_pos rfl, found i, Option.bind_some, if_pos group]
        refine congrArg some (Fin.ext ?_)
        change ((gid.x * 16 + t.val / 8) % 16 * 8 + (t.val % 8 + 8 * i.val) % 8) % 128 = t.val
        omega
      · rintro cell rfl
        rw [Function.update_self, place i, resultContent, found i]
        simp only [threadPart, inputs_eq]
        rfl
    · rintro - m' filled cell mine
      obtain ⟨c, low, lane, -, rfl⟩ := resultOwner_eq_some runs mine
      rw [Depth.channels] at low
      let i : Fin packed.depth.perThread := ⟨c / 8, by omega⟩
      refine filled i (List.mem_finRange i) _ ?_
      rw [Set.mem_singleton_iff, place i, show t.val % 8 + 8 * i.val = c by simp only [i]; omega]
  next past =>
    intro cell mine
    obtain ⟨c, -, -, query, -⟩ := resultOwner_eq_some runs mine
    exact absurd ((valid_iff runs here row).2 query) past

/-- From the scores of a tile on, the group leaves its results. -/
theorem finishes_from (left tt : ℕ) (last : tt + left + 1 = tiles packed)
    (scored : Scored floats node packed buffers cells gid tt m) :
    Finishes ⟨sources node packed buffers, {cell | home node buffers cell = some gid}⟩
      (fun t : Fin 128 => weigh floats gid (t / 8) (t % 8)
          (threadPart floats node packed buffers cells gid t tt) >>= fun part =>
        (List.range' (tt + 1) left).foldlM (turn floats packed buffers gid (t / 8) (t % 8)) part >>=
          storeResults floats packed buffers gid (t / 8) (t % 8)) m fun final =>
      ∀ cell, home node buffers cell = some gid → (∃ index, cell = .word buffers.dst index) →
        final cell = resultContent floats node packed buffers cells (plusPadded floats) cell := by
  have known : scoresAndValues gid ⊆
      {cell | cell ∈ sources node packed buffers ∨ home node buffers cell = some gid} := by
    rintro place ⟨r, c, rfl | rfl⟩ <;> exact .inr rfl
  induction left generalizing tt m with
  | zero =>
      simp only [List.range'_zero, List.foldlM_nil, pure_bind]
      refine Finishes.fillLast (resultOwner node buffers gid)
        (resultContent floats node packed buffers cells (plusPadded floats)) known
        (fun cell t mine => ?_) (fun cell source => ?_) (fun t => Returns.look Set.subset_union_left
          (weigh_tile t scored) ?_) ?_
      · obtain ⟨c, low, -, query, rfl⟩ := resultOwner_eq_some runs mine
        have holds := runs.dst_holds low ⟨query, here.head, here.batch⟩
        have group : groupOf ![c, gid.y, gid.x * 16 + t / 8, gid.z] = gid := by
          change (⟨(gid.x * 16 + t / 8) / 16, gid.y, gid.z⟩ : Gid) = gid
          rw [show (gid.x * 16 + t.val / 8) / 16 = gid.x by omega]
        change home node buffers _ = some gid
        rw [home, if_pos rfl, indexAt_element ready.apart holds, Option.map_some, group]
      · obtain ⟨r, c, rfl | rfl⟩ := source <;> rfl
      · rw [show tt + 1 = tiles packed from last]
        exact storeResults_returns runs here ready t
      · rintro cell mine ⟨index, rfl⟩
        rw [home, if_pos rfl] at mine
        obtain ⟨i, found, group⟩ := Option.map_eq_some_iff.1 mine
        have owner : resultOwner node buffers gid (.word buffers.dst index) =
            some (Fin.ofNat 128 (i 2 % 16 * 8 + i 0 % 8)) := by
          rw [resultOwner, if_pos rfl, found, Option.bind_some, if_pos group]
        exact owned_of_some owner
  | succ left inductionHypothesis =>
      simp only [List.range'_succ, List.foldlM_cons, bind_assoc]
      have weighs (t : Fin 128) : Returns ⟨scoresAndValues gid,
          {cell : Cell | (none : Option (Fin 128)) = some t}⟩ (weigh floats gid (t / 8) (t % 8)
            (threadPart floats node packed buffers cells gid t tt)) m fun part m' =>
          part = threadPart floats node packed buffers cells gid t (tt + 1) ∧
            ∀ cell : Cell, (none : Option (Fin 128)) = some t → m' cell = cells cell := by
        refine Returns.weaken (Returns.mono (weigh_tile t scored)
          (Set.union_subset_union_right _ (Set.empty_subset _)) (Set.empty_subset _)) ?_
        rintro part m' ⟨rfl, rfl⟩
        exact ⟨rfl, fun cell none_ => (Option.some_ne_none t none_.symm).elim⟩
      exact finishes_turn runs here (by omega) known
        (fun cell t none_ => (Option.some_ne_none t none_.symm).elim) (fun _ _ => rfl) weighs
        scored.toLoaded fun m' scored' => inductionHypothesis (tt + 1) (by omega) scored'

/-- A group leaves its results. -/
theorem finishes_main :
    Finishes ⟨sources node packed buffers, {cell | home node buffers cell = some gid}⟩
      (fun t : Fin 128 => main floats packed buffers gid (t / 8) (t % 8)) cells fun final =>
      ∀ cell, home node buffers cell = some gid → (∃ index, cell = .word buffers.dst index) →
        final cell = resultContent floats node packed buffers cells (plusPadded floats) cell := by
  obtain ⟨n, count⟩ : ∃ n, tiles packed = n + 1 := by
    have some_key := runs.pos.2.1 1
    have tiles := runs.tiles_eq
    exact ⟨(node.k.ne 1 + 31) / 32 - 1, by omega⟩
  have code (t : Fin 128) : main floats packed buffers gid (t / 8) (t % 8) =
      (bringQuery floats packed buffers gid (t / 8) (t % 8) >>= fun _ =>
        pure (Part.start floats _)) >>= fun part =>
      turn floats packed buffers gid (t / 8) (t % 8) part 0 >>= fun part =>
        (List.range' 1 n).foldlM (turn floats packed buffers gid (t / 8) (t % 8)) part >>=
          storeResults floats packed buffers gid (t / 8) (t % 8) := by
    simp only [main, count, List.range_eq_range', List.range'_succ, List.foldlM_cons, bind_assoc,
      pure_bind]
  simp only [code]
  refine finishes_turn runs here (by omega) Set.subset_union_left (fun cell t mine => ?_)
    (fun cell source => ?_) (fun t => Returns.bind ((bringQuery_returns runs here t
      fun _ _ => rfl).weaken fun _ m' filled => ⟨rfl, filled⟩)) ?_
    fun m' scored => finishes_from runs here ready n 0 (by omega) scored
  · cases cell with
    | q g r c =>
        rw [queryOwner] at mine
        split at mine
        next inside => exact congrArg some inside.1
        next => cases mine
    | k g j c => cases mine
    | v g j c => cases mine
    | s g r j => cases mine
    | word buffer index => cases mine
  · rcases source with ⟨j, -, rfl⟩ | ⟨j, -, rfl⟩ | ⟨j, -, rfl⟩ <;> rfl
  · refine ⟨fun place source => owned_of_none ?_, fun r low c channel => ?_⟩
    · rcases source with ⟨j, -, rfl⟩ | ⟨j, -, rfl⟩ | ⟨j, -, rfl⟩ <;> rfl
    · exact owned_of_some (if_pos ⟨rfl, low, channel⟩)

end Results

/-! ## A dispatch -/

/-- The threads of a dispatch. -/
def Packed.kernel (floats : Floats F) (packed : Packed F) (buffers : Buffers)
    (g : Fin packed.gx × Fin packed.gy × Fin packed.gz) (t : Fin 128) : Code Cell F PUnit :=
  main floats packed buffers ⟨g.1, g.2.1, g.2.2⟩ (t / 8) (t % 8)

/-- In every order of the turns a dispatch leaves its results. -/
theorem settles_kernel (packs : node.pack floats false = some packed)
    (ready : Ready node packed buffers) (cells : Cell → F) :
    Settles Step ⟨packed.kernel floats buffers, cells⟩ fun state : State _ _ Cell F =>
      (∀ g t, state.code g t = .done ⟨⟩) ∧
        Done floats node packed buffers (plusPadded floats) cells state.cells := by
  have runs := runs_of_pack packs ready.apart
  obtain ⟨gx, gy, gz⟩ := groups_of_pack packs
  let name (g : Fin packed.gx × Fin packed.gy × Fin packed.gz) : Gid := ⟨g.1, g.2.1, g.2.2⟩
  have injective : Function.Injective name := by
    intro g h same
    obtain ⟨x, y, z⟩ := Gid.mk.inj same
    exact Prod.ext (Fin.ext x) (Prod.ext (Fin.ext y) (Fin.ext z))
  have blocks := runs.groups.1
  have group (g : Fin packed.gx × Fin packed.gy × Fin packed.gz) : GroupAt node (name g) :=
    ⟨(g.1.isLt.trans_le (gx.trans_le blocks)).trans (by decide), g.2.1.isLt.trans_eq gy,
      g.2.2.isLt.trans_eq gz⟩
  obtain ⟨ends, all⟩ := settles_of_homes name injective (home node buffers)
    (home_of_source ready) fun g => finishes_main runs (group g) ready
  refine ⟨ends, fun state run stuck => ?_⟩
  obtain ⟨done, results, kept⟩ := all state run stuck
  refine ⟨done, fun i holds => ?_, fun buffer index off => kept _ fun g mine => ?_⟩
  · obtain ⟨channel, query, head, batch⟩ := runs.query_lt holds
    have found := indexAt_element ready.apart holds
    have block : i 2 / 16 < packed.gx := by
      rw [gx, kRows]
      omega
    have here := results (.word buffers.dst (node.dst.element i))
      (⟨_, block⟩, ⟨_, head.trans_eq gy.symm⟩, ⟨_, batch.trans_eq gz.symm⟩)
      (by rw [home, if_pos rfl, found]; rfl) ⟨_, rfl⟩
    rw [here, resultContent, found]
    rfl
  · rw [home] at mine
    split at mine
    next bound =>
      rw [indexAt_eq_none (off bound)] at mine
      cases mine
    next => cases mine

end DressOn.Ggml.FlashAttention
