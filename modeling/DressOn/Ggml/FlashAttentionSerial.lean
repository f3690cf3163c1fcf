import DressOn.Ggml.FlashAttentionTiles

/-!
# Attention by one thread

The serial sibling gives each query of each head a thread, which walks the tiles on its own and
skips the values past the last one. No thread waits for another.
-/

namespace DressOn.Ggml.FlashAttention

open ThreadGroups

variable {F : Type} {floats : Floats F} {node : Node F} {packed : Packed F} {buffers : Buffers}
  {cells : Cell → F}

/-- A fold over bounded numbers is one over numbers. -/
theorem foldl_finRange {α : Type*} {n : ℕ} (f : α → ℕ → α) (start : α) :
    (List.finRange n).foldl (fun a (i : Fin n) => f a i) start = (List.range n).foldl f start := by
  rw [← List.map_coe_finRange_eq_range, List.foldl_map]

section Query

variable (runs : Runs floats packed node) {iq h b : ℕ}
  (inside : iq < node.q.ne 1 ∧ h < node.q.ne 2 ∧ b < node.q.ne 3) {x y z : UInt32}
  (numbers : x.toNat = iq ∧ y.toNat = h ∧ z.toNat = b)

include runs inside numbers

/-- The thread loads its query. -/
theorem serialQuery_returns :
    Returns ⟨sources node packed buffers, ∅⟩
      (serialQuery floats packed buffers (frameAt packed.slot x y z)) cells fun qv m' =>
        qv = (fun c : Fin packed.depth.channels =>
          (inputsOf floats node packed buffers cells iq h b).q c) ∧ m' = cells :=
  Returns.components (fun (c : Fin packed.depth.channels) _ =>
    loadQuery floats packed buffers ((frameAt packed.slot x y z).qb + UInt32.ofNat c)) _
    fun c => loadQuery_returns (fun _ _ => rfl) runs inside c.isLt numbers

/-- A score of the thread. -/
theorem serialScore_returns {tt j : ℕ} (tile : tt < tiles packed) (low : j < 32) :
    Returns ⟨sources node packed buffers, ∅⟩
      (serialScore floats packed buffers (frameAt packed.slot x y z)
        (fun c => (inputsOf floats node packed buffers cells iq h b).q c)
        (UInt32.ofNat (tt * 32) + UInt32.ofNat j)) cells fun s m' =>
      s = score floats packed (inputsOf floats node packed buffers cells iq h b) (node.k.ne 1)
        (tt * 32 + j) ∧ m' = cells := by
  have guard := runs.key_lt_iff tile low
  rw [serialScore]
  split
  next there =>
    have known := guard.1 there
    refine Returns.bind (Returns.foldlM (fun before s m' => m' = cells ∧
      s = before.foldl (fun s (c : Fin packed.depth.channels) => floats.add s
        (floats.mul ((inputsOf floats node packed buffers cells iq h b).q c)
          ((inputsOf floats node packed buffers cells iq h b).k (tt * 32 + j) c))) floats.zero)
      ?_ ⟨rfl, rfl⟩ ?_)
    · rintro before c later - s m' ⟨rfl, rfl⟩
      refine Returns.look Set.subset_union_left (loadKey_returns (fun _ _ => rfl) runs inside.2
        known c.isLt numbers.2 (runs.toNat_key tile low) iq) ⟨rfl, ?_⟩
      rw [List.foldl_append]
      rfl
    · rintro s m' ⟨rfl, rfl⟩
      refine ⟨?_, rfl⟩
      rw [score, if_pos known, ← foldl_finRange]
  next past =>
    refine ⟨?_, rfl⟩
    rw [score, if_neg (mt guard.2 past)]

/-- The thread adds a value to its channels, if there is one. -/
theorem serialValue_returns {tt j : ℕ} (tile : tt < tiles packed) (low : j < 32) (p : F)
    (acc : Fin packed.depth.channels → F) :
    Returns ⟨sources node packed buffers, ∅⟩
      (serialValue floats packed buffers (frameAt packed.slot x y z)
        (UInt32.ofNat (tt * 32) + UInt32.ofNat j) p acc) cells fun result m' =>
      result = (fun c : Fin packed.depth.channels =>
        plusThere floats (inputsOf floats node packed buffers cells iq h b) (node.k.ne 1)
          (tt * 32 + j) p c (acc c)) ∧ m' = cells := by
  have guard := runs.key_lt_iff tile low
  rw [serialValue]
  split
  next there =>
    have known := guard.1 there
    simp only [plusThere, if_pos known]
    refine Returns.components (fun (c : Fin packed.depth.channels) a => do
      let v ← loadEntry floats packed buffers.s2 ((frameAt packed.slot x y z).vb +
        (UInt32.ofNat (tt * 32) + UInt32.ofNat j) * (frameAt packed.slot x y z).vn +
          UInt32.ofNat c)
      return floats.add a (floats.mul p v)) _ fun c => ?_
    exact Returns.look Set.subset_union_left (loadValue_returns (fun _ _ => rfl) runs inside.2
      known c.isLt numbers.2 (runs.toNat_key tile low) iq) ⟨rfl, rfl⟩
  next past =>
    simp only [plusThere, if_neg (mt guard.2 past)]
    exact ⟨rfl, rfl⟩

/-- The thread takes the scores of a tile into what it keeps. -/
theorem serialTurn_returns {tt : ℕ} (tile : tt < tiles packed) (part : Part F ℕ) :
    Returns ⟨sources node packed buffers, ∅⟩
      (serialTurn floats packed buffers (frameAt packed.slot x y z)
        (fun c => (inputsOf floats node packed buffers cells iq h b).q c)
        (part.of fun c : Fin packed.depth.channels => c) tt) cells fun result m' =>
      result = (part.take floats
        (fun j => score floats packed (inputsOf floats node packed buffers cells iq h b)
          (node.k.ne 1) (tt * 32 + j))
        fun j => plusThere floats (inputsOf floats node packed buffers cells iq h b) (node.k.ne 1)
          (tt * 32 + j)).of (fun c : Fin packed.depth.channels => c) ∧ m' = cells := by
  obtain ⟨scores, scores_eq⟩ : ∃ scores : ℕ → F, scores = fun j => score floats packed
    (inputsOf floats node packed buffers cells iq h b) (node.k.ne 1) (tt * 32 + j) := ⟨_, rfl⟩
  rw [← scores_eq]
  refine Returns.look Set.subset_union_left (Returns.components (fun (j : Fin 32) _ =>
    serialScore floats packed buffers (frameAt packed.slot x y z)
      (fun c => (inputsOf floats node packed buffers cells iq h b).q c)
      (UInt32.ofNat (tt * 32) + UInt32.ofNat j)) (fun j : Fin 32 => scores j) fun j => ?_) ?_
  · rw [scores_eq]
    exact serialScore_returns runs inside numbers tile j.isLt
  rw [foldl_finRange fun mt j => floats.max mt (scores j)]
  obtain ⟨mt, mt_eq⟩ : ∃ mt, (List.range 32).foldl (fun mt j => floats.max mt (scores j))
    (part.of fun c : Fin packed.depth.channels => c.val).m = mt := ⟨_, rfl⟩
  rw [mt_eq]
  refine Returns.bind (Returns.foldlM (fun before sums m' => m' = cells ∧
    sums = (before.foldl (fun ps (j : Fin 32) =>
        floats.add ps (floats.exp (floats.sub (scores j) mt))) floats.zero,
      fun c : Fin packed.depth.channels => before.foldl (fun a (j : Fin 32) =>
        plusThere floats (inputsOf floats node packed buffers cells iq h b) (node.k.ne 1)
          (tt * 32 + j) (floats.exp (floats.sub (scores j) mt)) c a)
        (floats.mul (part.acc c) (floats.exp (floats.sub part.m mt))))) ?_ ⟨rfl, rfl⟩ ?_)
  · rintro before j later - sums m' ⟨rfl, rfl⟩
    refine Returns.look Set.subset_union_left
      (serialValue_returns runs inside numbers tile j.isLt _ _) ⟨rfl, ?_⟩
    simp only [List.foldl_append, List.foldl_cons, List.foldl_nil]
  · rintro sums m' ⟨same, rfl⟩
    refine ⟨?_, same⟩
    rw [foldl_finRange fun ps j => floats.add ps (floats.exp (floats.sub (scores j) mt))]
    have each (c : Fin packed.depth.channels) := foldl_finRange (n := 32) (fun a j =>
      plusThere floats (inputsOf floats node packed buffers cells iq h b) (node.k.ne 1)
        (tt * 32 + j) (floats.exp (floats.sub (scores j) mt)) c a)
      (floats.mul (part.acc c) (floats.exp (floats.sub part.m mt)))
    simp only [each]
    subst mt_eq
    rfl

/-- The thread leaves its results. -/
theorem serialMain_returns {own : Set Cell} (ready : Ready node packed buffers)
    (mine : ∀ c < packed.depth.channels,
      .word buffers.dst (node.dst.element ![c, h, iq, b]) ∈ own) :
    Returns ⟨sources node packed buffers, own⟩ (serialMain floats packed buffers x y z) cells
      fun _ m' => ∀ c < packed.depth.channels,
        m' (.word buffers.dst (node.dst.element ![c, h, iq, b])) =
          resultOf floats node packed buffers (plusThere floats) cells ![c, h, iq, b] := by
  have place {c : ℕ} (channel : c < packed.depth.channels) :=
    runs.target_eq channel inside numbers buffers
  have found {c : ℕ} (channel : c < packed.depth.channels) :=
    indexAt_element ready.apart (runs.dst_holds channel inside)
  have walked (n : ℕ) (some_tiles : n ≤ tiles packed) : Returns ⟨sources node packed buffers, ∅⟩
      ((List.range n).foldlM (serialTurn floats packed buffers (frameAt packed.slot x y z)
        fun c => (inputsOf floats node packed buffers cells iq h b).q c) (Part.start floats _))
      cells fun part m' =>
        part = (partAfter floats packed (inputsOf floats node packed buffers cells iq h b)
          (node.k.ne 1) (plusThere floats (inputsOf floats node packed buffers cells iq h b)
            (node.k.ne 1)) n).of (fun c : Fin packed.depth.channels => c) ∧ m' = cells := by
    induction n with
    | zero => exact ⟨rfl, rfl⟩
    | succ n inductionHypothesis =>
        rw [List.range_succ, List.foldlM_append]
        refine Returns.look Set.subset_union_left (inductionHypothesis (by omega)) ?_
        rw [List.foldlM_cons, partAfter_succ]
        refine Returns.look Set.subset_union_left
          (serialTurn_returns runs inside numbers (by omega) _) ⟨rfl, rfl⟩
  refine Returns.look Set.subset_union_left (serialQuery_returns runs inside numbers) ?_
  refine Returns.look Set.subset_union_left (walked (tiles packed) le_rfl) ?_
  refine (returns_fills (resultContent floats node packed buffers cells (plusThere floats))
    (fun c : Fin packed.depth.channels => {target packed buffers x y z c}) ?_ ?_).weaken ?_
  · rintro c - cell rfl source
    rw [place c.isLt] at source
    exact ready.spares _ (runs.dst_holds c.isLt inside) source
  · rintro c - m' -
    refine ⟨?_, fun cell other => Function.update_of_ne other _ _, ?_⟩
    · rw [place c.isLt]
      exact mine c c.isLt
    · rintro cell rfl
      rw [Function.update_self, place c.isLt, resultContent, found c.isLt]
      rfl
  · rintro - m' filled c channel
    have here := filled ⟨c, channel⟩ (List.mem_finRange _) _ rfl
    rw [place channel] at here
    rw [here, resultContent, found channel]
    rfl

end Query

/-! ## A dispatch -/

/-- The grid of the sibling. -/
def Packed.launch (packed : Packed F) : Launch.Grid :=
  ⟨packed.slot.threads, packed.slot.groupsX, packed.gx, packed.gy⟩

/-- The threads of a dispatch of the sibling. -/
def Packed.sibling (floats : Floats F) (packed : Packed F) (buffers : Buffers)
    (g : Fin packed.gy × Fin packed.gx) (t : Fin 64) : Code Cell F PUnit :=
  (Launch.entry1D (⟨g.1, g.2, t⟩ : Launch.Thread packed.launch 64)).elim (pure ⟨⟩) fun e =>
    let rest := e / packed.slot.src0.ne 1
    serialMain floats packed buffers (e % packed.slot.src0.ne 1) (rest % packed.slot.src0.ne 2)
      (rest / packed.slot.src0.ne 2)

section Dispatch

variable (node) (buffers)

/-- The number of the query of a result. -/
def queryIndex (i : Fin 4 → ℕ) : ℕ := i 2 + node.q.ne 1 * (i 1 + node.q.ne 2 * i 3)

/-- The group of a cell. -/
noncomputable def siblingHome : Cell → Option ℕ
  | .word buffer index =>
      if buffer = buffers.dst then (indexAt node.dst index).map fun i => queryIndex node i / 64
      else none
  | _ => none

/-- The thread of a group that stores a result. -/
noncomputable def siblingOwner (group : ℕ) : Cell → Option (Fin 64)
  | .word buffer index =>
      if buffer = buffers.dst then
        (indexAt node.dst index).bind fun i =>
          if queryIndex node i / 64 = group then some (Fin.ofNat 64 (queryIndex node i)) else none
      else none
  | _ => none

end Dispatch

variable (runs : Runs floats packed node)

include runs

/-- The number of a query gives its place in the head, the head and the batch. -/
theorem queryIndex_split {i : Fin 4 → ℕ} (holds : node.dst.Holds i) :
    queryIndex node i % node.q.ne 1 = i 2 ∧ queryIndex node i / node.q.ne 1 % node.q.ne 2 = i 1 ∧
      queryIndex node i / node.q.ne 1 / node.q.ne 2 = i 3 ∧ queryIndex node i < node.queries := by
  obtain ⟨-, query, head, batch⟩ := runs.query_lt holds
  have rest : queryIndex node i / node.q.ne 1 = i 1 + node.q.ne 2 * i 3 := by
    rw [queryIndex, Nat.add_mul_div_left _ _ (runs.pos.1 1), Nat.div_eq_of_lt query, Nat.zero_add]
  refine ⟨?_, ?_, ?_, ?_⟩
  · rw [queryIndex, Nat.add_mul_mod_self_left, Nat.mod_eq_of_lt query]
  · rw [rest, Nat.add_mul_mod_self_left, Nat.mod_eq_of_lt head]
  · rw [rest, Nat.add_mul_div_left _ _ (runs.pos.1 2), Nat.div_eq_of_lt head, Nat.zero_add]
  · have heads : i 1 + node.q.ne 2 * i 3 + 1 ≤ node.q.ne 2 * node.q.ne 3 :=
      calc i 1 + node.q.ne 2 * i 3 + 1 ≤ node.q.ne 2 * (i 3 + 1) := by rw [Nat.mul_succ]; omega
        _ ≤ node.q.ne 2 * node.q.ne 3 := Nat.mul_le_mul_left _ batch
    calc queryIndex node i < node.q.ne 1 * (i 1 + node.q.ne 2 * i 3 + 1) := by
          rw [queryIndex, Nat.mul_succ]
          omega
      _ ≤ node.q.ne 1 * (node.q.ne 2 * node.q.ne 3) := Nat.mul_le_mul_left _ heads
      _ = node.queries := (Nat.mul_assoc _ _ _).symm

/-- The place, the head and the batch of a number below the count. -/
theorem place_of_number {n : ℕ} (less : n < node.queries) :
    n % node.q.ne 1 < node.q.ne 1 ∧ n / node.q.ne 1 % node.q.ne 2 < node.q.ne 2 ∧
      n / node.q.ne 1 / node.q.ne 2 < node.q.ne 3 := by
  refine ⟨Nat.mod_lt _ (runs.pos.1 1), Nat.mod_lt _ (runs.pos.1 2), ?_⟩
  rw [Nat.div_div_eq_div_mul]
  exact Nat.div_lt_of_lt_mul less

/-- The numbers of the threads do not wrap. -/
theorem number_lt_size (launched : Launch.Launched packed.launch 64 node.queries)
    (thread : Launch.Thread packed.launch 64) : Launch.number thread < 2 ^ 32 := by
  have below := Launch.number_lt thread
  have queries := runs.queries
  have columns := launched.columns
  rcases launched.rounded with one | ⟨full, rows⟩
  · rw [one] at below
    simp only [Move.maxGroupsPerDim] at columns
    omega
  · rw [full] at below
    simp only [Move.maxGroupsPerDim] at *
    omega

/-- A result's index, from the number of its query. -/
theorem index_of_number {i : Fin 4 → ℕ} (holds : node.dst.Holds i) {n : ℕ}
    (query : queryIndex node i = n) :
    ![i 0, n / node.q.ne 1 % node.q.ne 2, n % node.q.ne 1, n / node.q.ne 1 / node.q.ne 2] = i := by
  obtain ⟨place, head, batch, -⟩ := queryIndex_split runs holds
  rw [query] at place head batch
  funext d
  fin_cases d
  · rfl
  · exact head
  · exact place
  · exact batch

omit runs in
/-- The number of a query, from its place, its head and its batch. -/
theorem queryIndex_of_number (c n : ℕ) :
    queryIndex node ![c, n / node.q.ne 1 % node.q.ne 2, n % node.q.ne 1,
      n / node.q.ne 1 / node.q.ne 2] = n := by
  change n % node.q.ne 1 + node.q.ne 1 * (n / node.q.ne 1 % node.q.ne 2 +
    node.q.ne 2 * (n / node.q.ne 1 / node.q.ne 2)) = n
  rw [Nat.mod_add_div, Nat.mod_add_div]

omit runs in
/-- The result that a thread of the sibling stores to a cell. -/
theorem siblingOwner_eq_some {group : ℕ} {t : Fin 64} {cell : Cell}
    (mine : siblingOwner node buffers group cell = some t) :
    ∃ i, node.dst.Holds i ∧ queryIndex node i = group * 64 + t ∧
      cell = .word buffers.dst (node.dst.element i) := by
  cases cell with
  | word buffer index =>
      rw [siblingOwner] at mine
      split at mine
      next bound =>
        obtain ⟨i, found, mine⟩ := Option.bind_eq_some_iff.1 mine
        split at mine
        next here =>
          have number : queryIndex node i % 64 = t.val :=
            congrArg Fin.val (Option.some.inj mine)
          obtain ⟨holds, address⟩ := indexAt_eq_some found
          exact ⟨i, holds, by omega, by rw [bound, address]⟩
        next => cases mine
      next => cases mine
  | q g r c => cases mine
  | k g j c => cases mine
  | v g j c => cases mine
  | s g r j => cases mine

/-- A thread of the sibling leaves the results of its query. -/
theorem sibling_returns (ready : Ready node packed buffers)
    (launched : Launch.Launched packed.launch 64 node.queries)
    (g : Fin packed.gy × Fin packed.gx) (t : Fin 64) :
    Returns ⟨sources node packed buffers,
        {cell | siblingOwner node buffers (g.1 * packed.gx + g.2) cell = some t}⟩
      (packed.sibling floats buffers g t) cells fun _ m' =>
      ∀ cell, siblingOwner node buffers (g.1 * packed.gx + g.2) cell = some t →
        m' cell = resultContent floats node packed buffers cells (plusThere floats) cell := by
  obtain ⟨n, n_eq⟩ : ∃ n, (g.1.val * packed.gx + g.2.val) * 64 + t.val = n := ⟨_, rfl⟩
  have started (e : UInt32) :
      Launch.entry1D (⟨g.1, g.2, t⟩ : Launch.Thread packed.launch 64) = some e ↔
        Launch.number (⟨g.1, g.2, t⟩ : Launch.Thread packed.launch 64) % 2 ^ 32 = e.toNat ∧
          e.toNat < node.queries := Launch.entry1D_eq_some launched
  have number : Launch.number (⟨g.1, g.2, t⟩ : Launch.Thread packed.launch 64) = n := n_eq
  have small : n < 2 ^ 32 := number ▸ number_lt_size runs launched _
  rw [number, Nat.mod_eq_of_lt small] at started
  rw [Packed.sibling]
  cases entry : Launch.entry1D (⟨g.1, g.2, t⟩ : Launch.Thread packed.launch 64) with
  | none =>
      intro cell mine
      obtain ⟨i, holds, query, -⟩ := siblingOwner_eq_some mine
      have less := (queryIndex_split runs holds).2.2.2
      have word : (UInt32.ofNat n).toNat = n := UInt32.toNat_ofNat_of_lt' small
      have there := (started (UInt32.ofNat n)).2
        ⟨word.symm, by rw [word, ← n_eq, ← query]; exact less⟩
      rw [entry] at there
      cases there
  | some e =>
      obtain ⟨e_eq, less⟩ := (started e).1 entry
      rw [← e_eq] at less
      have inside := place_of_number runs less
      have numbers : (e % packed.slot.src0.ne 1).toNat = n % node.q.ne 1 ∧
          (e / packed.slot.src0.ne 1 % packed.slot.src0.ne 2).toNat =
            n / node.q.ne 1 % node.q.ne 2 ∧
          (e / packed.slot.src0.ne 1 / packed.slot.src0.ne 2).toNat =
            n / node.q.ne 1 / node.q.ne 2 := by
        simp only [UInt32.toNat_mod, UInt32.toNat_div, runs.src0.ne, ← e_eq, and_self]
      refine (serialMain_returns runs inside numbers ready fun c channel => ?_).weaken ?_
      · have holds := runs.dst_holds channel inside
        change siblingOwner node buffers _ _ = some t
        rw [siblingOwner, if_pos rfl, indexAt_element ready.apart holds, Option.bind_some,
          queryIndex_of_number, if_pos (by omega)]
        refine congrArg some (Fin.ext ?_)
        change n % 64 = t.val
        omega
      · rintro - m' stored cell mine
        obtain ⟨i, holds, query, rfl⟩ := siblingOwner_eq_some mine
        have here := stored (i 0) (runs.query_lt holds).1
        rw [index_of_number runs holds (query.trans n_eq)] at here
        rw [here, resultContent, indexAt_element ready.apart holds]
        rfl

omit runs in
/-- A word of the sources is no result. -/
theorem sibling_unowned (ready : Ready node packed buffers) {place : Cell}
    (source : place ∈ sources node packed buffers) :
    siblingHome node buffers place = none ∧
      ∀ group, siblingOwner node buffers group place = none := by
  cases place with
  | word buffer index =>
      rw [siblingHome]
      simp only [siblingOwner]
      split
      next bound =>
        subst bound
        have none_ := indexAt_eq_none fun i holds (same : node.dst.element i = index) =>
          ready.spares i holds (same ▸ source)
        rw [none_]
        exact ⟨rfl, fun _ => rfl⟩
      next => exact ⟨rfl, fun _ => rfl⟩
  | q g r c => exact ⟨rfl, fun _ => rfl⟩
  | k g r c => exact ⟨rfl, fun _ => rfl⟩
  | v g r c => exact ⟨rfl, fun _ => rfl⟩
  | s g r c => exact ⟨rfl, fun _ => rfl⟩

omit runs in
/-- A result of a group is a thread's. -/
theorem siblingOwner_of_home {group : ℕ} {cell : Cell}
    (mine : siblingHome node buffers cell = some group) :
    ∃ t, siblingOwner node buffers group cell = some t := by
  cases cell with
  | word buffer index =>
      rw [siblingHome] at mine
      split at mine
      next bound =>
        obtain ⟨i, found, here⟩ := Option.map_eq_some_iff.1 mine
        exact ⟨Fin.ofNat 64 (queryIndex node i), by
          rw [siblingOwner, if_pos bound, found, Option.bind_some, if_pos here]⟩
      next => cases mine
  | q g r c => cases mine
  | k g r c => cases mine
  | v g r c => cases mine
  | s g r c => cases mine

omit runs in
/-- The groups have numbers of their own. -/
theorem group_injective (rows columns : ℕ) :
    Function.Injective fun g : Fin rows × Fin columns => g.1.val * columns + g.2.val := by
  intro g h same
  have column : g.2.val = h.2.val := by
    have := congrArg (· % columns) same
    simpa [Nat.mul_add_mod', Nat.mod_eq_of_lt] using this
  have row : g.1.val * columns + g.2.val = h.1.val * columns + h.2.val := same
  rw [column, Nat.add_right_cancel_iff] at row
  exact Prod.ext (Fin.ext (Nat.eq_of_mul_eq_mul_right g.2.pos row)) (Fin.ext column)

omit runs in
/-- In every order of the turns a dispatch of the sibling leaves its results. -/
theorem settles_sibling (packs : node.pack floats true = some packed)
    (ready : Ready node packed buffers) (cells : Cell → F) :
    Settles Step ⟨packed.sibling floats buffers, cells⟩ fun state : State _ _ Cell F =>
      (∀ g t, state.code g t = .done ⟨⟩) ∧
        Done floats node packed buffers (plusThere floats) cells state.cells := by
  have runs := runs_of_pack packs ready.apart
  have launched : Launch.Launched packed.launch 64 node.queries := by
    have whole := (launch_of_pack packs).1
    rw [Nat.mod_eq_of_lt (runs.queries.trans_lt (by decide))] at whole
    exact Launch.launched_of_grid1d (by decide) whole
  let name (g : Fin packed.gy × Fin packed.gx) : ℕ := g.1 * packed.gx + g.2
  have finishes (g : Fin packed.gy × Fin packed.gx) :
      Finishes ⟨sources node packed buffers,
          {cell | siblingHome node buffers cell = some (name g)}⟩
        (packed.sibling floats buffers g) cells fun m =>
        ∀ cell, siblingHome node buffers cell = some (name g) → True →
          m cell = resultContent floats node packed buffers cells (plusThere floats) cell := by
    refine Finishes.fillLast (siblingOwner node buffers (name g))
      (resultContent floats node packed buffers cells (plusThere floats)) Set.subset_union_left
      (fun cell t mine => ?_) (fun place source => (sibling_unowned ready source).2 _)
      (fun t => sibling_returns runs ready launched g t) fun cell mine _ => ?_
    · obtain ⟨i, holds, query, rfl⟩ := siblingOwner_eq_some mine
      change siblingHome node buffers _ = some (name g)
      rw [siblingHome, if_pos rfl, indexAt_element ready.apart holds, Option.map_some, query]
      exact congrArg some (by omega)
    · obtain ⟨t, owner⟩ := siblingOwner_of_home mine
      exact owned_of_some owner
  obtain ⟨ends, all⟩ := settles_of_homes name (group_injective _ _) (siblingHome node buffers)
    (fun place source => (sibling_unowned ready source).1) finishes
  refine ⟨ends, fun state run stuck => ?_⟩
  obtain ⟨done, results, kept⟩ := all state run stuck
  refine ⟨done, fun i holds => ?_, fun buffer index off => kept _ fun g mine => ?_⟩
  · have found := indexAt_element ready.apart holds
    have less := (queryIndex_split runs holds).2.2.2
    obtain ⟨thread, number⟩ := Launch.exists_thread
      (less.trans_le launched.covers)
    have group : queryIndex node i / 64 = name (thread.gidY, thread.gidX) := by
      rw [← number, Launch.number, Nat.mul_comm _ 64, Nat.mul_add_div (by decide),
        Nat.div_eq_of_lt thread.lid.isLt, Nat.add_zero]
      rfl
    have here := results (.word buffers.dst (node.dst.element i)) (thread.gidY, thread.gidX)
      (by rw [siblingHome, if_pos rfl, found, Option.map_some, group]) trivial
    rw [here, resultContent, found]
    rfl
  · rw [siblingHome] at mine
    split at mine
    next bound =>
      rw [indexAt_eq_none (off bound)] at mine
      cases mine
    next => cases mine

end DressOn.Ggml.FlashAttention
