import DressOn.Ggml.Move

/-!
# One thread for each element

`grid_1d` splits a launch into two dimensions of work groups, and `entry1D` rebuilds the linear
index of a thread from them in 32-bit words. The grid is rounded up, and past `2 ^ 32` threads the
index wraps to elements that have a thread already.
-/

namespace DressOn.Ggml.Launch

open Move (maxWord maxGroupsPerDim)

/-- The thread-group sizes of the kernels whose entry is `entry1D`: the serial SUM has 1, the serial
FLASH_ATTN_EXT siblings have 64, the others 256. -/
def entry1DThreadgroups : List ℕ := [1, 64, 256]

/-- A thread of the grid. -/
@[ext] structure Thread (grid : Grid) (tg : ℕ) where
  gidY : Fin grid.gy
  gidX : Fin grid.gx
  lid : Fin tg

variable {grid : Grid} {tg threads : ℕ}

/-- `linearThread`. -/
def linearThread (thread : Thread grid tg) : UInt32 :=
  (UInt32.ofNat thread.gidY.val * grid.groupsX + UInt32.ofNat thread.gidX.val) * UInt32.ofNat tg +
    UInt32.ofNat thread.lid.val

/-- `entry1D`: the element that a thread runs the body for. -/
def entry1D (thread : Thread grid tg) : Option UInt32 :=
  let e := linearThread thread
  if grid.threads ≤ e then none else some e

/-- The body runs for every index below the count in exactly one thread, and for no other index. -/
def DispatchedOnce (grid : Grid) (tg threads : ℕ) : Prop :=
  (∀ index < threads, ∃! thread : Thread grid tg, entry1D thread = some (UInt32.ofNat index)) ∧
    ∀ (thread : Thread grid tg) (e : UInt32), entry1D thread = some e → e.toNat < threads

/-- The number of a thread, not cut to a word. -/
def number (thread : Thread grid tg) : ℕ :=
  (thread.gidY.val * grid.gx + thread.gidX.val) * tg + thread.lid.val

/-- Every number below the size of the grid is one thread's. -/
theorem exists_thread {n : ℕ} (less : n < grid.gy * grid.gx * tg) :
    ∃ thread : Thread grid tg, number thread = n := by
  have group : n / tg < grid.gy * grid.gx := Nat.div_lt_of_lt_mul (by rwa [Nat.mul_comm])
  have tg_pos : 0 < tg := Nat.pos_of_ne_zero fun zero => by simp [zero] at less
  have gx_pos : 0 < grid.gx := Nat.pos_of_ne_zero fun zero => by simp [zero] at less
  refine ⟨⟨⟨n / tg / grid.gx, Nat.div_lt_of_lt_mul (by rwa [Nat.mul_comm])⟩,
    ⟨n / tg % grid.gx, Nat.mod_lt _ gx_pos⟩, ⟨n % tg, Nat.mod_lt _ tg_pos⟩⟩, ?_⟩
  change (n / tg / grid.gx * grid.gx + n / tg % grid.gx) * tg + n % tg = n
  rw [Nat.div_add_mod', Nat.div_add_mod']

/-- A thread's number is below the size of the grid. -/
theorem number_lt (thread : Thread grid tg) : number thread < grid.gy * grid.gx * tg := by
  have group : thread.gidY.val * grid.gx + thread.gidX.val + 1 ≤ grid.gy * grid.gx :=
    calc
      thread.gidY.val * grid.gx + thread.gidX.val + 1 ≤ thread.gidY.val * grid.gx + grid.gx :=
        Nat.add_le_add_left thread.gidX.isLt _
      _ = (thread.gidY.val + 1) * grid.gx := (Nat.succ_mul _ _).symm
      _ ≤ grid.gy * grid.gx := Nat.mul_le_mul_right _ thread.gidY.isLt
  calc
    number thread < (thread.gidY.val * grid.gx + thread.gidX.val) * tg + tg :=
      Nat.add_lt_add_left thread.lid.isLt _
    _ = (thread.gidY.val * grid.gx + thread.gidX.val + 1) * tg := (Nat.succ_mul _ _).symm
    _ ≤ grid.gy * grid.gx * tg := Nat.mul_le_mul_right _ group

/-- Threads of one number are one thread. -/
theorem number_inj {thread other : Thread grid tg} (same : number thread = number other) :
    thread = other := by
  have lids : thread.lid.val = other.lid.val := by
    simpa [number, Nat.mul_add_mod', Nat.mod_eq_of_lt] using congrArg (· % tg) same
  rw [number, number, lids, Nat.add_right_cancel_iff] at same
  have groups := Nat.eq_of_mul_eq_mul_right thread.lid.pos same
  have columns : thread.gidX.val = other.gidX.val := by
    simpa [Nat.mul_add_mod', Nat.mod_eq_of_lt] using congrArg (· % grid.gx) groups
  rw [columns, Nat.add_right_cancel_iff] at groups
  have rows := Nat.eq_of_mul_eq_mul_right thread.gidX.pos groups
  exact Thread.ext (Fin.ext rows) (Fin.ext columns) (Fin.ext lids)

/-- What `grid_1d` says of the grid that it returns. -/
structure Launched (grid : Grid) (tg threads : ℕ) : Prop where
  counted : 0 < threads ∧ threads ≤ maxWord
  threads_eq : grid.threads = UInt32.ofNat threads
  groupsX_eq : grid.groupsX = UInt32.ofNat grid.gx
  columns : grid.gx ≤ maxGroupsPerDim
  rows : grid.gy ≤ maxGroupsPerDim
  covers : threads ≤ grid.gy * grid.gx * tg
  /-- One row of groups, or full rows of which only the last one is partly needed. -/
  rounded : grid.gy = 1 ∨
    (grid.gx = maxGroupsPerDim ∧ (grid.gy - 1) * maxGroupsPerDim * tg < threads)

/-- `grid_1d` covers its threads and rounds up by less than a row of groups. -/
theorem launched_of_grid1d (some_thread : 0 < tg) (launched : grid1d tg threads = some grid) :
    Launched grid tg threads := by
  rw [grid1d] at launched
  split at launched
  next => cases launched
  next counted =>
    extract_lets groups gx gy at launched
    split at launched
    next => cases launched
    next inside =>
      obtain rfl := Option.some.inj launched
      have groups_pos : 0 < groups := Nat.div_pos (by omega) some_thread
      have whole : threads ≤ groups * tg := by
        have : threads + tg - 1 < groups * tg + tg := Nat.lt_div_mul_add some_thread
        omega
      have partly : ∀ few < groups, few * tg < threads := by
        intro few less
        have fits : (few + 1) * tg ≤ threads + tg - 1 :=
          (Nat.le_div_iff_mul_le some_thread).mp less
        rw [Nat.succ_mul] at fits
        omega
      have columns : gx ≤ maxGroupsPerDim ∧ 0 < gx := by
        by_cases few : groups < maxGroupsPerDim
        · rw [show gx = groups from if_pos few]
          exact ⟨few.le, groups_pos⟩
        · rw [show gx = maxGroupsPerDim from if_neg few]
          exact ⟨le_rfl, by decide⟩
      have rows_cover : groups ≤ gy * gx := by
        have : groups + gx - 1 < gy * gx + gx := Nat.lt_div_mul_add columns.2
        omega
      refine ⟨by omega, rfl, rfl, columns.1, not_lt.mp inside,
        whole.trans (Nat.mul_le_mul_right tg rows_cover), ?_⟩
      by_cases few : groups < maxGroupsPerDim
      · left
        change (groups + gx - 1) / gx = 1
        rw [show gx = groups from if_pos few]
        exact Nat.div_eq_of_lt_le (by omega) (by omega)
      · right
        have full : gx = maxGroupsPerDim := if_neg few
        refine ⟨full, partly _ ?_⟩
        have upper : gy * gx ≤ groups + gx - 1 := Nat.div_mul_le_self _ _
        rw [← full]
        change (gy - 1) * gx < groups
        rw [Nat.sub_mul, Nat.one_mul]
        omega

/-- The word that `linearThread` computes is the thread's number, cut to 32 bits. -/
theorem toNat_linearThread (launched : Launched grid tg threads) (thread : Thread grid tg) :
    (linearThread thread).toNat = number thread % 2 ^ 32 := by
  simp only [linearThread, number, launched.groupsX_eq, UInt32.toNat_add, UInt32.toNat_mul,
    UInt32.toNat_ofNat']
  simp only [Nat.add_mod, Nat.mul_mod, Nat.mod_mod]

/-- A thread runs the body for the word of its number, when that is below the count. -/
theorem entry1D_eq_some (launched : Launched grid tg threads) {thread : Thread grid tg}
    {e : UInt32} : entry1D thread = some e ↔
      number thread % 2 ^ 32 = e.toNat ∧ e.toNat < threads := by
  have counted := launched.counted
  have threads_toNat : grid.threads.toNat = threads := by
    rw [launched.threads_eq]
    exact UInt32.toNat_ofNat_of_lt' (Nat.lt_succ_of_le counted.2)
  rw [entry1D, ← toNat_linearThread launched]
  simp only [UInt32.le_iff_toNat_le, threads_toNat]
  split
  next past =>
    simp only [reduceCtorEq, false_iff, not_and]
    omega
  next below =>
    rw [Option.some.injEq, ← UInt32.toNat_inj]
    omega

/-- The body runs once for every index exactly when the numbers of the grid are words. -/
theorem dispatchedOnce_iff_size (launched : Launched grid tg threads) :
    DispatchedOnce grid tg threads ↔ grid.gy * grid.gx * tg ≤ 2 ^ 32 := by
  have counted := launched.counted
  simp only [maxWord] at counted
  have index_toNat : ∀ index < threads, (UInt32.ofNat index).toNat = index := fun index less =>
    UInt32.toNat_ofNat_of_lt' (by simp only [UInt32.size]; omega)
  constructor
  · -- the first index would have a second thread, the one of number 2 ^ 32
    rintro ⟨once, -⟩
    by_contra large
    obtain ⟨first, first_number⟩ := @exists_thread grid tg 0 (by omega)
    obtain ⟨second, second_number⟩ :=
      @exists_thread grid tg (2 ^ 32) (by omega)
    obtain ⟨thread, -, unique⟩ := once 0 counted.1
    have runs_first : entry1D first = some (UInt32.ofNat 0) :=
      (entry1D_eq_some launched).mpr ⟨by rw [first_number]; rfl, counted.1⟩
    have runs_second : entry1D second = some (UInt32.ofNat 0) :=
      (entry1D_eq_some launched).mpr ⟨by rw [second_number]; rfl, counted.1⟩
    have same : first = second := (unique first runs_first).trans (unique second runs_second).symm
    rw [same, second_number] at first_number
    omega
  · intro small
    refine ⟨fun index less => ?_, fun thread e runs => ((entry1D_eq_some launched).mp runs).2⟩
    obtain ⟨thread, thread_number⟩ := exists_thread (less.trans_le launched.covers)
    have exact_number : ∀ thread : Thread grid tg, number thread % 2 ^ 32 = number thread :=
      fun thread => Nat.mod_eq_of_lt ((number_lt thread).trans_le small)
    refine ⟨thread, (entry1D_eq_some launched).mpr ?_, fun other runs => ?_⟩
    · rw [exact_number, index_toNat index less]
      exact ⟨thread_number, less⟩
    · obtain ⟨other_number, -⟩ := (entry1D_eq_some launched).mp runs
      rw [exact_number, index_toNat index less] at other_number
      exact number_inj (other_number.trans thread_number.symm)

/-- The body runs for every index below the count in exactly one thread, and for no other index,
exactly when the count is at most the whole rows of groups that fit `2 ^ 32` threads. -/
theorem dispatched_once_iff (entry : tg ∈ entry1DThreadgroups)
    (launched : grid1d tg threads = some grid) :
    DispatchedOnce grid tg threads ↔ threads ≤ 65535 * 65536 := by
  simp only [entry1DThreadgroups, List.mem_cons, List.not_mem_nil, or_false] at entry
  have launch := launched_of_grid1d (by omega) launched
  rw [dispatchedOnce_iff_size launch]
  obtain ⟨-, -, -, columns, rows, covers, rounded⟩ := launch
  simp only [maxGroupsPerDim] at columns rows rounded
  rcases rounded with single | ⟨full, last⟩
  · rw [single, Nat.one_mul] at covers ⊢
    rcases entry with rfl | rfl | rfl <;> omega
  · rw [full] at covers ⊢
    rcases entry with rfl | rfl | rfl <;> omega

/-- A launch of 200 threads in one group runs every index once. -/
theorem dispatched_once_short : ∃ grid, grid1d 256 200 = some grid ∧ DispatchedOnce grid 256 200 :=
  ⟨⟨200, 1, 1, 1⟩, rfl, (dispatched_once_iff (by decide) rfl).mpr (by decide)⟩

/-- A 65535 × 65537 tensor of one repeated element. -/
def repeatedElement : Move.Tensor where
  type := .i32
  ne := ![65535, 65537, 1, 1]
  nb := ![0, 0, 0, 0]
  offset := 0
  inside := by decide +kernel

/-- The support checks of CPY admit a copy of it onto another such tensor, and the launch for its
elements runs the first index twice. -/
theorem first_element_twice :
    (⟨repeatedElement, .cpy repeatedElement⟩ : Move.Node).supports = true ∧
      ∃ grid, grid1d 256 repeatedElement.nelements = some grid ∧
        ¬ DispatchedOnce grid 256 repeatedElement.nelements := by
  refine ⟨by decide +kernel, ⟨4294967295, 65535, 65535, 257⟩, by decide +kernel, ?_⟩
  rintro ⟨once, -⟩
  obtain ⟨thread, -, unique⟩ := once 0 (by decide +kernel)
  have same := (unique ⟨0, 0, 0⟩ (by decide +kernel)).trans
    (unique ⟨256, 256, 0⟩ (by decide +kernel)).symm
  exact absurd (congrArg (fun thread => thread.gidY.val) same) (by decide +kernel)

end DressOn.Ggml.Launch
