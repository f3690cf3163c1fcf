import DressOn.Ggml.FlashAttentionSerial

/-!
# FLASH_ATTN_EXT

The kernel and its serial sibling leave the same words in every order of their turns, where the
zeros that stand for missing values change no sum of the run. In exact arithmetic, where the lowest
score is below every number and the exponential of a missing score is zero, a result is the mean of
the values, weighted by the softmax of the query's scores with all the keys.
-/

namespace DressOn.Ggml.FlashAttention

open ThreadGroups OnlineSoftmax

section Siblings

variable {F : Type} {floats : Floats F} {packed : Packed F} {inputs : Inputs F} {keys : ℕ}

/-- Past the last key the sibling adds nothing. -/
theorem foldl_plusThere {first n m : ℕ} (past : keys ≤ first + n) (more : n ≤ m) (p : ℕ → F) (c : ℕ)
    (start : F) :
    (List.range m).foldl (fun a j => plusThere floats inputs keys (first + j) (p j) c a) start =
      (List.range n).foldl (fun a j => plusThere floats inputs keys (first + j) (p j) c a)
        start := by
  induction m, more using Nat.le_induction with
  | base => rfl
  | succ m more inductionHypothesis =>
      have missing : ¬ first + m < keys := by omega
      rw [List.range_succ, List.foldl_append, inductionHypothesis, List.foldl_cons, List.foldl_nil,
        plusThere, if_neg missing]

/-- Nor does the kernel, where the sum of a tile takes the product of a zero in unchanged. -/
theorem foldl_plusPadded {first n : ℕ} (p : ℕ → F) (c : ℕ) (start : F)
    (adds : ∀ j < n, keys ≤ first + j →
      let sum := (List.range n).foldl
        (fun a j => plusThere floats inputs keys (first + j) (p j) c a) start
      floats.add sum (floats.mul (p j) floats.zero) = sum) {m : ℕ} (some_of : m ≤ n) :
    (List.range m).foldl (fun a j => plusPadded floats inputs keys (first + j) (p j) c a) start =
      (List.range m).foldl (fun a j => plusThere floats inputs keys (first + j) (p j) c a)
        start := by
  induction m with
  | zero => rfl
  | succ m inductionHypothesis =>
      rw [List.range_succ, List.foldl_append, List.foldl_append, inductionHypothesis (by omega),
        List.foldl_cons, List.foldl_cons, List.foldl_nil, List.foldl_nil, plusPadded, plusThere]
      by_cases there : first + m < keys
      · rw [if_pos there, if_pos there]
      · rw [if_neg there, if_neg there]
        have past : keys ≤ first + m := by omega
        have whole := adds m (by omega) past
        rwa [foldl_plusThere past (by omega)] at whole

/-- The largest score and the sum of the weights do not go by the values. -/
theorem partAfter_weights (floats : Floats F) (packed : Packed F) (inputs : Inputs F) (keys n : ℕ) :
    let kernel := partAfter floats packed inputs keys (plusPadded floats inputs keys) n
    let sibling := partAfter floats packed inputs keys (plusThere floats inputs keys) n
    kernel.m = sibling.m ∧ kernel.ls = sibling.ls := by
  induction n with
  | zero => exact ⟨rfl, rfl⟩
  | succ n inductionHypothesis =>
      dsimp only
      rw [partAfter_succ, partAfter_succ]
      simp only [Part.take, inductionHypothesis, and_self]

/-- Both kernels keep the same of a channel, where its last sum takes the product of a zero with the
weight of a missing score in unchanged. -/
theorem partAfter_plusPadded {c : ℕ}
    (padded : ¬ 32 ∣ keys →
      let part := partAfter floats packed inputs keys (plusThere floats inputs keys)
        ((keys + 31) / 32)
      floats.add (part.acc c)
        (floats.mul (floats.exp (floats.sub floats.lowest part.m)) floats.zero) = part.acc c)
    {n : ℕ} (tile : n ≤ (keys + 31) / 32) :
    (partAfter floats packed inputs keys (plusPadded floats inputs keys) n).acc c =
      (partAfter floats packed inputs keys (plusThere floats inputs keys) n).acc c := by
  induction n with
  | zero => rfl
  | succ n inductionHypothesis =>
      have top := (partAfter_weights floats packed inputs keys n).1
      rw [partAfter_succ, partAfter_succ]
      simp only [Part.take, top, inductionHypothesis (by omega)]
      refine foldl_plusPadded _ c _ (fun j low past => ?_) le_rfl
      -- only the last tile has missing keys
      have last : (keys + 31) / 32 = n + 1 := by omega
      have ragged : ¬ 32 ∣ keys := by omega
      have sum := padded ragged
      rw [last, partAfter_succ] at sum
      simp only [score, if_neg (Nat.not_lt.2 past)]
      exact sum

variable {node : Node F} {buffers : Buffers}

/-- The zeros that the kernel adds for missing values change no sum of a run: each query's last sums
take their products with the weight of a missing score in unchanged. -/
def Padded (floats : Floats F) (node : Node F) (packed : Packed F) (buffers : Buffers)
    (cells : Cell → F) : Prop :=
  ¬ 32 ∣ node.k.ne 1 → ∀ i, node.dst.Holds i →
    let inputs := inputsOf floats node packed buffers cells (i 2) (i 1) (i 3)
    let part := partAfter floats packed inputs (node.k.ne 1)
      (plusThere floats inputs (node.k.ne 1)) (tiles packed)
    floats.add (part.acc (i 0))
      (floats.mul (floats.exp (floats.sub floats.lowest part.m)) floats.zero) = part.acc (i 0)

/-- The results of a kernel are its sibling's. -/
theorem Done.of_padded (runs : Runs floats packed node) {cells final : Cell → F}
    (padded : Padded floats node packed buffers cells)
    (done : Done floats node packed buffers (plusPadded floats) cells final) :
    Done floats node packed buffers (plusThere floats) cells final := by
  refine ⟨fun i holds => ?_, done.2⟩
  have count := runs.tiles_eq
  have weights := (partAfter_weights floats packed
    (inputsOf floats node packed buffers cells (i 2) (i 1) (i 3)) (node.k.ne 1) (tiles packed)).2
  have channel := partAfter_plusPadded (fun ragged => count ▸ padded ragged i holds) count.le
  rw [done.1 i holds, resultOf, resultOf]
  simp only [Part.result, weights, channel]

/-- What a node leaves is one memory. -/
theorem Done.unique {plus : Inputs F → ℕ → ℕ → F → ℕ → F → F} {cells final other : Cell → F}
    (done : Done floats node packed buffers plus cells final)
    (done' : Done floats node packed buffers plus cells other) (buffer index : ℕ) :
    final (.word buffer index) = other (.word buffer index) := by
  by_cases written : buffer = buffers.dst ∧ ∃ i, node.dst.Holds i ∧ node.dst.element i = index
  · obtain ⟨rfl, i, holds, rfl⟩ := written
    rw [done.1 i holds, done'.1 i holds]
  · have off : buffer = buffers.dst → ∀ i, node.dst.Holds i → node.dst.element i ≠ index :=
      fun same i holds at_i => written ⟨same, i, holds, at_i⟩
    rw [done.2 _ _ off, done'.2 _ _ off]

/-- A node packed for the sibling is packed for the kernel with the same words. -/
theorem pack_of_serial {sibling : Packed F} (packs : node.pack floats true = some sibling) :
    node.pack floats false = some { sibling with
      slot := { sibling.slot with threads := 0, groupsX := 0 }
      gx := (node.q.ne 1 + kRows - 1) / kRows
      gy := node.q.ne 2
      gz := node.q.ne 3 } := by
  unfold Node.pack at packs
  split at packs
  next supports =>
    obtain ⟨dst, dst_eq, packs⟩ := Option.bind_eq_some_iff.1 packs
    obtain ⟨src0, src0_eq, packs⟩ := Option.bind_eq_some_iff.1 packs
    obtain ⟨src1, src1_eq, packs⟩ := Option.bind_eq_some_iff.1 packs
    obtain ⟨src2, src2_eq, packs⟩ := Option.bind_eq_some_iff.1 packs
    obtain ⟨depth, depth_eq, packs⟩ := Option.bind_eq_some_iff.1 packs
    obtain ⟨grid, -, rfl⟩ := Option.map_eq_some_iff.1 packs
    rw [Node.pack, if_pos supports, dst_eq, Option.bind_some, src0_eq, Option.bind_some, src1_eq,
      Option.bind_some, src2_eq, Option.bind_some, depth_eq]
    rfl
  next => cases packs

/-- Whatever the order of the turns, a node's kernel and its serial sibling leave the same words, and
nothing else in the buffers changes, where a missing value's product with its weight changes no
sum. -/
theorem attention_siblings {sibling : Packed F} (packs : node.pack floats false = some packed)
    (packs' : node.pack floats true = some sibling) (ready : Ready node packed buffers)
    (cells : Cell → F) (padded : Padded floats node packed buffers cells) :
    Settles Step ⟨packed.kernel floats buffers, cells⟩
      (fun state : State _ _ Cell F => (∀ g t, state.code g t = .done ⟨⟩) ∧
        Done floats node packed buffers (plusThere floats) cells state.cells) ∧
    Settles Step ⟨sibling.sibling floats buffers, cells⟩
      (fun state : State _ _ Cell F => (∀ g t, state.code g t = .done ⟨⟩) ∧
        Done floats node packed buffers (plusThere floats) cells state.cells) ∧
    ∀ final other, Done floats node packed buffers (plusThere floats) cells final →
      Done floats node packed buffers (plusThere floats) cells other →
        ∀ buffer index, final (.word buffer index) = other (.word buffer index) := by
  refine ⟨?_, ?_, fun _ _ done done' => done.unique done'⟩
  · obtain ⟨ends, all⟩ := settles_kernel packs ready cells
    exact ⟨ends, fun state run stuck =>
      ⟨(all state run stuck).1, (all state run stuck).2.of_padded (runs_of_pack packs ready.apart) padded⟩⟩
  · obtain rfl := Option.some.inj (packs.symm.trans (pack_of_serial packs'))
    exact settles_sibling packs' ⟨ready.apart, ready.spares⟩ cells

end Siblings

/-- The reals and one score below them; the conversions are left open. -/
noncomputable def exactFloats (f16 : Bool → WithBot ℝ → WithBot ℝ)
    (round16 : WithBot ℝ → WithBot ℝ) : Floats (WithBot ℝ) where
  add := WithBot.map₂ (· + ·)
  mul := WithBot.map₂ (· * ·)
  sub := WithBot.map₂ (· - ·)
  div := WithBot.map₂ (· / ·)
  max := (· ⊔ ·)
  exp x := ((x.map Real.exp).unbotD 0 : ℝ)
  tanh := WithBot.map Real.tanh
  zero := (0 : ℝ)
  one := (1 : ℝ)
  lowest := ⊥
  isZero x := open Classical in decide (x = (0 : ℝ))
  f16 := f16
  round16 := round16

/-- A score, from the dot product of a query with a key. -/
noncomputable def logit (scale cap dot : ℝ) : ℝ :=
  if cap = 0 then dot * scale else cap * Real.tanh (dot * (scale / cap))

/-- The attention of a query: the mean of the values, weighted by the softmax of the scores. -/
noncomputable def attention (channels keys : ℕ) (scale cap : ℝ) (inputs : Inputs ℝ) (c : ℕ) : ℝ :=
  softmaxMean
    (fun key => logit scale cap (∑ c ∈ Finset.range channels, inputs.q c * inputs.k key c))
    (fun key => inputs.v key c) keys

section Arithmetic

variable (f16 : Bool → WithBot ℝ → WithBot ℝ) (round16 : WithBot ℝ → WithBot ℝ)

@[simp] theorem exactFloats_add (x y : ℝ) :
    (exactFloats f16 round16).add x y = (x + y : ℝ) := rfl

@[simp] theorem exactFloats_mul (x y : ℝ) :
    (exactFloats f16 round16).mul x y = (x * y : ℝ) := rfl

@[simp] theorem exactFloats_div (x y : ℝ) :
    (exactFloats f16 round16).div x y = (x / y : ℝ) := rfl

@[simp] theorem exactFloats_tanh (x : ℝ) :
    (exactFloats f16 round16).tanh x = (Real.tanh x : ℝ) := rfl

@[simp] theorem exactFloats_isZero (x : ℝ) :
    (exactFloats f16 round16).isZero x = true ↔ x = 0 := by
  simp only [exactFloats, decide_eq_true_iff, WithBot.coe_inj]

/-- The exponential of a difference is a weight. -/
@[simp] theorem exactFloats_exp_sub (score top : WithBot ℝ) :
    (exactFloats f16 round16).exp ((exactFloats f16 round16).sub score top) =
      (weight score top : ℝ) := by
  cases score with
  | bot => rfl
  | coe score =>
      cases top with
      | bot => rfl
      | coe top => rfl

theorem exactFloats_padded (node : Node (WithBot ℝ)) (packed : Packed (WithBot ℝ))
    (buffers : Buffers) (cells : Cell → WithBot ℝ) :
    Padded (exactFloats f16 round16) node packed buffers cells := by
  intro _ i _ inputs part
  generalize part.acc (i 0) = a, part.m = top
  have nothing : (exactFloats f16 round16).mul ((exactFloats f16 round16).exp
      ((exactFloats f16 round16).sub (exactFloats f16 round16).lowest top))
      (exactFloats f16 round16).zero = ((0 : ℝ) : WithBot ℝ) := by
    change ((_ * 0 : ℝ) : WithBot ℝ) = _
    rw [mul_zero]
  rw [nothing]
  cases a with
  | bot => rfl
  | coe a => rw [exactFloats_add, add_zero]

/-- Numbers are added one by one. -/
theorem foldl_coe {step : WithBot ℝ → ℕ → WithBot ℝ} {term : ℕ → ℝ}
    (adds : ∀ (a : ℝ) (j : ℕ), step a j = (a + term j : ℝ)) (x : ℝ) (n : ℕ) :
    (List.range n).foldl step x = (x + ∑ j ∈ Finset.range n, term j : ℝ) := by
  induction n with
  | zero =>
      rw [List.range_zero, List.foldl_nil, Finset.range_zero, Finset.sum_empty, add_zero]
  | succ n inductionHypothesis =>
      rw [List.range_succ, List.foldl_append, inductionHypothesis, List.foldl_cons, List.foldl_nil,
        adds, Finset.sum_range_succ, add_assoc]

/-- The largest of some scores. -/
theorem foldl_max (scores : ℕ → WithBot ℝ) (m : WithBot ℝ) (n : ℕ) :
    (List.range n).foldl (fun mt j => (exactFloats f16 round16).max mt (scores j)) m =
      m ⊔ (Finset.range n).sup scores := by
  induction n with
  | zero =>
      rw [List.range_zero, List.foldl_nil, Finset.range_zero, Finset.sup_empty, sup_bot_eq]
  | succ n inductionHypothesis =>
      rw [List.range_succ, List.foldl_append, inductionHypothesis, List.foldl_cons, List.foldl_nil,
        Finset.range_add_one, Finset.sup_insert]
      change (m ⊔ _) ⊔ scores n = m ⊔ (scores n ⊔ _)
      rw [sup_assoc, sup_comm (scores n)]

/-! ## A tile -/

variable (part : Part (WithBot ℝ) ℕ) (scores : ℕ → WithBot ℝ)
  (plus : ℕ → WithBot ℝ → ℕ → WithBot ℝ → WithBot ℝ)

theorem take_m : (part.take (exactFloats f16 round16) scores plus).m =
    part.m ⊔ (Finset.range 32).sup scores :=
  foldl_max f16 round16 scores part.m 32

/-- The sum of the weights, rescaled to the new top. -/
theorem take_ls {total : ℝ} (total_eq : part.ls = total) {next : WithBot ℝ}
    (next_eq : (part.take (exactFloats f16 round16) scores plus).m = next) :
    (part.take (exactFloats f16 round16) scores plus).ls =
      (total * weight part.m next + ∑ j ∈ Finset.range 32, weight (scores j) next : ℝ) := by
  have sums : (List.range 32).foldl (fun ps j =>
      (exactFloats f16 round16).add ps (weight (scores j) next : ℝ)) ((0 : ℝ) : WithBot ℝ) =
      (0 + ∑ j ∈ Finset.range 32, weight (scores j) next : ℝ) :=
    foldl_coe (fun a j => exactFloats_add f16 round16 a _) 0 32
  rw [zero_add] at sums
  change (List.range 32).foldl (fun mt j => (exactFloats f16 round16).max mt (scores j)) part.m =
    next at next_eq
  rw [Part.take]
  simp only [next_eq, exactFloats_exp_sub, total_eq, exactFloats_mul]
  rw [← exactFloats_add f16 round16, ← sums]
  rfl

/-- A channel, rescaled to the new top. -/
theorem take_acc {c : ℕ} {weighted : ℝ} (weighted_eq : part.acc c = weighted) {value : ℕ → ℝ}
    {next : WithBot ℝ} (next_eq : (part.take (exactFloats f16 round16) scores plus).m = next)
    (adds : ∀ (a : ℝ) (j : ℕ),
      plus j (weight (scores j) next) c a = (a + weight (scores j) next * value j : ℝ)) :
    (part.take (exactFloats f16 round16) scores plus).acc c =
      (weighted * weight part.m next +
        ∑ j ∈ Finset.range 32, weight (scores j) next * value j : ℝ) := by
  change (List.range 32).foldl (fun mt j => (exactFloats f16 round16).max mt (scores j)) part.m =
    next at next_eq
  rw [Part.take]
  simp only [next_eq, exactFloats_exp_sub, weighted_eq, exactFloats_mul]
  exact foldl_coe adds _ 32

end Arithmetic

section Results

variable {f16 : Bool → WithBot ℝ → WithBot ℝ} {round16 : WithBot ℝ → WithBot ℝ}
  {packed : Packed (WithBot ℝ)}

/-- The elements of a query, of the keys and of the values are numbers. -/
structure Known (channels keys : ℕ) (inputs : Inputs (WithBot ℝ)) (known : Inputs ℝ) : Prop where
  q : ∀ c < channels, inputs.q c = known.q c
  k : ∀ key < keys, ∀ c < channels, inputs.k key c = known.k key c
  v : ∀ key < keys, ∀ c < channels, inputs.v key c = known.v key c

variable {inputs : Inputs (WithBot ℝ)} {known : Inputs ℝ} {keys : ℕ}
  (numbers : Known packed.depth.channels keys inputs known)

/-- What a kernel adds to a channel: the weighted value, and nothing past the last key. -/
def Adds (channels keys : ℕ) (known : Inputs ℝ)
    (plus : ℕ → WithBot ℝ → ℕ → WithBot ℝ → WithBot ℝ) : Prop :=
  ∀ (key : ℕ) (p : ℝ) (c : ℕ) (a : ℝ), c < channels → (keys ≤ key → p = 0) →
    plus key p c a = (a + p * known.v key c : ℝ)

include numbers

theorem adds_plusPadded :
    Adds packed.depth.channels keys known (plusPadded (exactFloats f16 round16) inputs keys) := by
  intro key p c a channel past
  rw [plusPadded]
  by_cases there : key < keys
  · rw [if_pos there, numbers.v key there c channel, exactFloats_mul, exactFloats_add]
  · rw [if_neg there, past (Nat.le_of_not_lt there)]
    change ((a + 0 * 0 : ℝ) : WithBot ℝ) = _
    rw [zero_mul, zero_mul]

theorem adds_plusThere :
    Adds packed.depth.channels keys known (plusThere (exactFloats f16 round16) inputs keys) := by
  intro key p c a channel past
  rw [plusThere]
  by_cases there : key < keys
  · rw [if_pos there, numbers.v key there c channel, exactFloats_mul, exactFloats_add]
  · rw [if_neg there, past (Nat.le_of_not_lt there), zero_mul, add_zero]

/-- The score of a key. -/
theorem score_eq {scale cap : ℝ} (softcap : packed.slot.softcap = cap)
    (scaled : packed.slot.scale = (if cap = 0 then scale else scale / cap : ℝ)) {key : ℕ}
    (there : key < keys) :
    score (exactFloats f16 round16) packed inputs keys key =
      (logit scale cap (∑ c ∈ Finset.range packed.depth.channels,
        known.q c * known.k key c) : ℝ) := by
  have dot : (List.range packed.depth.channels).foldl (fun dot c => (exactFloats f16 round16).add dot
      ((exactFloats f16 round16).mul (inputs.q c) (inputs.k key c))) (exactFloats f16 round16).zero =
      (∑ c ∈ Finset.range packed.depth.channels, known.q c * known.k key c : ℝ) := by
    have terms : (List.range packed.depth.channels).foldl (fun dot c =>
        (exactFloats f16 round16).add dot ((exactFloats f16 round16).mul (inputs.q c)
          (inputs.k key c))) (exactFloats f16 round16).zero =
        (List.range packed.depth.channels).foldl (fun dot c => (exactFloats f16 round16).add dot
          (known.q c * known.k key c : ℝ)) ((0 : ℝ) : WithBot ℝ) :=
      List.foldl_ext _ _ _ fun dot c channel => by
        rw [numbers.q c (List.mem_range.1 channel), numbers.k key there c (List.mem_range.1 channel),
          exactFloats_mul]
    rw [terms, foldl_coe (fun a j => exactFloats_add f16 round16 a _), zero_add]
  rw [score, if_pos there, dot, squash, softcap, scaled, logit]
  by_cases uncapped : cap = 0
  · rw [if_pos ((exactFloats_isZero f16 round16 cap).2 uncapped), if_pos uncapped, if_pos uncapped,
      exactFloats_mul]
  · rw [if_neg fun zero_ => uncapped ((exactFloats_isZero f16 round16 cap).1 zero_),
      if_neg uncapped, if_neg uncapped, exactFloats_mul, exactFloats_tanh, exactFloats_mul]

omit numbers in
variable (f16 round16 inputs) in
/-- What is kept after some tiles stands for the keys of these tiles. -/
theorem partAfter_stands {plus : ℕ → WithBot ℝ → ℕ → WithBot ℝ → WithBot ℝ}
    (adds : Adds packed.depth.channels keys known plus) {c : ℕ} (channel : c < packed.depth.channels)
    (n : ℕ) :
    ∃ total weighted : ℝ,
      (partAfter (exactFloats f16 round16) packed inputs keys plus n).ls = total ∧
      (partAfter (exactFloats f16 round16) packed inputs keys plus n).acc c = weighted ∧
      Stands (score (exactFloats f16 round16) packed inputs keys) (fun key => known.v key c) (n * 32)
        (partAfter (exactFloats f16 round16) packed inputs keys plus n).m total weighted := by
  induction n with
  | zero =>
      rw [Nat.zero_mul]
      exact ⟨0, 0, rfl, rfl, Stands.start⟩
  | succ n inductionHypothesis =>
      obtain ⟨total, weighted, total_eq, weighted_eq, stands⟩ := inductionHypothesis
      rw [partAfter_succ, Nat.succ_mul]
      refine ⟨_, _, take_ls f16 round16 _ _ _ total_eq rfl,
        take_acc f16 round16 _ _ _ weighted_eq rfl fun a j => ?_,
        stands.tile 32 (take_m f16 round16 _ _ _)⟩
      refine adds _ _ c a channel fun past => ?_
      rw [score, if_neg (Nat.not_lt_of_le past)]
      rfl

/-- Of the tiles that hold all the keys, the result is the attention. -/
theorem result_eq {scale cap : ℝ} (softcap : packed.slot.softcap = cap)
    (scaled : packed.slot.scale = (if cap = 0 then scale else scale / cap : ℝ))
    (some_key : 0 < keys) {n : ℕ} (few : keys ≤ n * 32)
    {plus : ℕ → WithBot ℝ → ℕ → WithBot ℝ → WithBot ℝ}
    (adds : Adds packed.depth.channels keys known plus) {c : ℕ}
    (channel : c < packed.depth.channels) :
    (partAfter (exactFloats f16 round16) packed inputs keys plus n).result
        (exactFloats f16 round16) c =
      (attention packed.depth.channels keys scale cap known c : ℝ) := by
  obtain ⟨total, weighted, total_eq, weighted_eq, stands⟩ :=
    partAfter_stands f16 round16 inputs adds channel n
  obtain ⟨one_le, mean⟩ := stands.quotient some_key few
    (fun key there => score_eq numbers softcap scaled there)
    (fun key past => if_neg (Nat.not_lt_of_le past))
  have pos : total ≠ 0 := (zero_lt_one.trans_le one_le).ne'
  rw [Part.result, inverse, total_eq, weighted_eq,
    if_neg fun zero_ => pos ((exactFloats_isZero f16 round16 total).1 zero_)]
  change ((weighted * (1 / total) : ℝ) : WithBot ℝ) = _
  rw [mul_one_div, mean]
  rfl

end Results

section Dispatches

variable (f16 : Bool → WithBot ℝ → WithBot ℝ) (round16 : WithBot ℝ → WithBot ℝ)
  {node : Node (WithBot ℝ)} {packed : Packed (WithBot ℝ)} {buffers : Buffers}

/-- The elements of the sources are numbers. -/
def Numbers (node : Node (WithBot ℝ)) (packed : Packed (WithBot ℝ)) (buffers : Buffers)
    (cells : Cell → WithBot ℝ) (known : ℕ → ℕ → ℕ → Inputs ℝ) : Prop :=
  ∀ iq < node.q.ne 1, ∀ h < node.q.ne 2, ∀ b < node.q.ne 3, Known (node.q.ne 0) (node.k.ne 1)
    (inputsOf (exactFloats f16 round16) node packed buffers cells iq h b) (known iq h b)

/-- The destination holds the attention of each query, and nothing else in the buffers changed. -/
def Attends (node : Node (WithBot ℝ)) (buffers : Buffers) (scale cap : ℝ)
    (known : ℕ → ℕ → ℕ → Inputs ℝ) (cells final : Cell → WithBot ℝ) : Prop :=
  (∀ i, node.dst.Holds i → final (.word buffers.dst (node.dst.element i)) =
    (attention (node.q.ne 0) (node.k.ne 1) scale cap (known (i 2) (i 1) (i 3)) (i 0) : ℝ)) ∧
  ∀ buffer index, (buffer = buffers.dst → ∀ i, node.dst.Holds i → node.dst.element i ≠ index) →
    final (.word buffer index) = cells (.word buffer index)

variable {f16 round16} {scale cap : ℝ} {cells final : Cell → WithBot ℝ}
  {known : ℕ → ℕ → ℕ → Inputs ℝ}

/-- What either kernel leaves is the attention. -/
theorem Runs.attends (runs : Runs (exactFloats f16 round16) packed node)
    (scale_eq : node.scale = scale) (cap_eq : node.softcap = cap)
    (numbers : Numbers f16 round16 node packed buffers cells known)
    {plus : Inputs (WithBot ℝ) → ℕ → ℕ → WithBot ℝ → ℕ → WithBot ℝ → WithBot ℝ}
    (adds : ∀ {inputs : Inputs (WithBot ℝ)} {known : Inputs ℝ},
      Known packed.depth.channels (node.k.ne 1) inputs known →
        Adds packed.depth.channels (node.k.ne 1) known (plus inputs (node.k.ne 1)))
    (done : Done (exactFloats f16 round16) node packed buffers plus cells final) :
    Attends node buffers scale cap known cells final := by
  refine ⟨fun i holds => ?_, done.2⟩
  obtain ⟨channel, query, head, batch⟩ := runs.query_lt holds
  have here := numbers _ query _ head _ batch
  rw [runs.channels.1] at here
  have scaled : packed.slot.scale = (if cap = 0 then scale else scale / cap : ℝ) := by
    rw [runs.scale, scale_eq, cap_eq]
    by_cases uncapped : cap = 0
    · rw [if_pos ((exactFloats_isZero f16 round16 cap).2 uncapped), if_pos uncapped]
    · rw [if_neg fun zero_ => uncapped ((exactFloats_isZero f16 round16 cap).1 zero_),
        if_neg uncapped, exactFloats_div]
  have covered : node.k.ne 1 ≤ tiles packed * 32 := by
    rw [runs.tiles_eq]
    omega
  rw [done.1 i holds, resultOf, runs.channels.1]
  exact result_eq here (runs.softcap.trans cap_eq) scaled (runs.pos.2.1 1) covered (adds here)
    channel

/-- In exact arithmetic, whatever the order of the turns, the kernel a node is packed for leaves the
attention of each query, and so does its serial sibling. -/
theorem attention_exact (scale_eq : node.scale = scale) (cap_eq : node.softcap = cap)
    (ready : Ready node packed buffers)
    (numbers : Numbers f16 round16 node packed buffers cells known) :
    (node.pack (exactFloats f16 round16) false = some packed →
      Settles Step ⟨packed.kernel (exactFloats f16 round16) buffers, cells⟩
        fun state : State _ _ Cell (WithBot ℝ) => (∀ g t, state.code g t = .done ⟨⟩) ∧
          Attends node buffers scale cap known cells state.cells) ∧
    (node.pack (exactFloats f16 round16) true = some packed →
      Settles Step ⟨packed.sibling (exactFloats f16 round16) buffers, cells⟩
        fun state : State _ _ Cell (WithBot ℝ) => (∀ g t, state.code g t = .done ⟨⟩) ∧
          Attends node buffers scale cap known cells state.cells) := by
  constructor
  · intro packs
    obtain ⟨ends, all⟩ := settles_kernel packs ready cells
    refine ⟨ends, fun state run stuck => ?_⟩
    obtain ⟨ended, done⟩ := all state run stuck
    exact ⟨ended, (runs_of_pack packs ready.apart).attends scale_eq cap_eq numbers adds_plusPadded done⟩
  · intro packs
    obtain ⟨ends, all⟩ := settles_sibling packs ready cells
    refine ⟨ends, fun state run stuck => ?_⟩
    obtain ⟨ended, done⟩ := all state run stuck
    exact ⟨ended, (runs_of_pack packs ready.apart).attends scale_eq cap_eq numbers adds_plusThere done⟩

end Dispatches

/-! ## A small attention -/

/-- A tensor of rows of 64. -/
def rowsOf64 (rows : ℕ) (few : rows < 2 ^ 20) : Move.Tensor where
  type := .f32
  ne := ![64, rows, 1, 1]
  nb := ![4, 256, 256 * rows, 256 * rows]
  offset := 0
  inside := by
    rw [Fin.sum_univ_four]
    simp only [Matrix.cons_val, Move.GgmlType.size, Move.maxBufferBytes]
    omega
  ne_lt k := by
    fin_cases k <;> simp
    omega
  nb_lt k := by
    fin_cases k <;> simp
    all_goals omega

/-- A query with two keys. -/
noncomputable def small : Node (WithBot ℝ) where
  dst := rowsOf64 1 (by decide)
  q := rowsOf64 1 (by decide)
  k := rowsOf64 2 (by decide)
  v := rowsOf64 2 (by decide)
  mask := false
  sinks := false
  scale := (1 : ℝ)
  softcap := (0 : ℝ)
  prec := 0

theorem small_packs (floats : Floats (WithBot ℝ)) (serial : Bool) :
    ∃ packed, small.pack floats serial = some packed := by
  refine Option.isSome_iff_exists.1 ?_
  cases serial with
  | false => rfl
  | true => rfl

theorem small_ready (packed : Packed (WithBot ℝ)) : Ready small packed ⟨0, 1, 2, 3⟩ where
  apart := Move.apart_of_contiguous (by decide) (by decide)
  spares i _ := by
    rintro (⟨j, -, same⟩ | ⟨j, -, same⟩ | ⟨j, -, same⟩) <;>
      exact absurd (Cell.word.inj same).1 (by decide)

/-- A query with two keys: the kernel and its sibling leave the same words. -/
theorem attention_siblings_small :
    let floats := exactFloats (fun _ x => x) fun x => x
    ∃ packed sibling, small.pack floats false = some packed ∧
      small.pack floats true = some sibling ∧ ∀ cells,
        Settles Step ⟨packed.kernel floats ⟨0, 1, 2, 3⟩, cells⟩
          (fun state : State _ _ Cell (WithBot ℝ) => (∀ g t, state.code g t = .done ⟨⟩) ∧
            Done floats small packed ⟨0, 1, 2, 3⟩ (plusThere floats) cells state.cells) ∧
        Settles Step ⟨sibling.sibling floats ⟨0, 1, 2, 3⟩, cells⟩
          (fun state : State _ _ Cell (WithBot ℝ) => (∀ g t, state.code g t = .done ⟨⟩) ∧
            Done floats small packed ⟨0, 1, 2, 3⟩ (plusThere floats) cells state.cells) := by
  intro floats
  obtain ⟨packed, packs⟩ := small_packs floats false
  obtain ⟨sibling, packs'⟩ := small_packs floats true
  refine ⟨packed, sibling, packs, packs', fun cells => ?_⟩
  obtain ⟨kernel, serial, -⟩ := attention_siblings packs packs' (small_ready packed) cells
    (exactFloats_padded _ _ small packed _ cells)
  exact ⟨kernel, serial⟩

/-- The elements of a memory of numbers, where nothing is converted. -/
def elementsIn (node : Node (WithBot ℝ)) (packed : Packed (WithBot ℝ)) (buffers : Buffers)
    (words : Cell → ℝ) (iq h b : ℕ) : Inputs ℝ where
  q c := words (.word buffers.s0 (node.q.element ![c, iq, h, b]))
  k key c := words (.word buffers.s1
    (entryWord packed (UInt32.ofNat (node.k.element (node.entryIndex node.k c key h b)))))
  v key c := words (.word buffers.s2
    (entryWord packed (UInt32.ofNat (node.v.element (node.entryIndex node.v c key h b)))))

theorem numbers_elementsIn (node : Node (WithBot ℝ)) (packed : Packed (WithBot ℝ))
    (buffers : Buffers) (words : Cell → ℝ) :
    Numbers (fun _ x => x) (fun x => x) node packed buffers (fun cell => words cell)
      (elementsIn node packed buffers words) := by
  intro iq _ h _ b _
  constructor
  · intro c _
    exact ite_self _
  · intro key _ c _
    exact ite_self _
  · intro key _ c _
    exact ite_self _

/-- A query with two keys, of any numbers. -/
theorem attention_exact_small :
    ∃ packed, small.pack (exactFloats (fun _ x => x) fun x => x) false = some packed ∧
      ∀ words : Cell → ℝ, Settles Step ⟨packed.kernel (exactFloats (fun _ x => x) fun x => x)
          ⟨0, 1, 2, 3⟩, fun cell => words cell⟩
        fun state : State _ _ Cell (WithBot ℝ) => (∀ g t, state.code g t = .done ⟨⟩) ∧
          Attends small ⟨0, 1, 2, 3⟩ 1 0 (elementsIn small packed ⟨0, 1, 2, 3⟩ words)
            (fun cell => words cell) state.cells := by
  obtain ⟨packed, packs⟩ := small_packs (exactFloats (fun _ x => x) fun x => x) false
  exact ⟨packed, packs, fun words => (attention_exact rfl rfl (small_ready packed)
    (numbers_elementsIn small packed ⟨0, 1, 2, 3⟩ words)).1 packs⟩

end DressOn.Ggml.FlashAttention
