import DressOn.Lbfgsb.Driver

/-!
# What a phase does to the buffers

An op changes the buffers its kernel binds writable and no other. A copy is exact because
the buffer it adds with coefficient zero is finite, and projecting a point twice is
projecting it once.
-/

namespace DressOn.Stepwise

open Lib.BinaryFloats Lbfgsb.Vec

/-! ## Frames -/

/-- The buffers an op's kernel binds writable. -/
def writes (o : Op Single) : List Buf :=
  match o.kind with
  | .boxProject => [o.a]
  | .pgInf | .stepMax => [.SC]
  | .multiDot | .saxpby => [o.c]
  | .compact => [.ST, .BF]
  | .ringStore => [.SM, .YM]
  | .applyM => [.VOUT]
  | .cauchy => [.XCP, .VECC, .WK, .ISET]
  | .subspace => [.ISET, .D, .WK]

@[simp]
theorem writes_boxProject (x : Buf) : writes (boxProject x) = [x] := rfl

@[simp]
theorem writes_pgInf (x g : Buf) (slot : ℕ) : writes (pgInf x g slot) = [.SC] := rfl

@[simp]
theorem writes_stepMax (x d : Buf) (slot : ℕ) : writes (Lbfgsb.Vec.stepMax x d slot) = [.SC] := rfl

@[simp]
theorem writes_multiDot (a : Buf) (ncols : ℕ) (v dst : Buf) (dstOff : ℕ) :
    writes (multiDot a ncols v dst dstOff) = [dst] := rfl

@[simp]
theorem writes_dot (a b : Buf) (slot : ℕ) : writes (dot a b slot) = [.SC] := rfl

@[simp]
theorem writes_compact (mode : ℕ) : writes (compact mode) = [.ST, .BF] := rfl

@[simp]
theorem writes_ringStore : writes ringStore = [.SM, .YM] := rfl

@[simp]
theorem writes_cauchy : writes cauchy = [.XCP, .VECC, .WK, .ISET] := rfl

@[simp]
theorem writes_subspace (maxit : ℕ) : writes (subspace maxit) = [.ISET, .D, .WK] := rfl

@[simp]
theorem writes_saxpby (dst x y : Buf) (a b : Single) (dyn : Bool) :
    writes (saxpby dst x y a b dyn) = [dst] := rfl

@[simp]
theorem writes_copy (dst src : Buf) : writes (copy dst src) = [dst] := rfl

/-- Under distinct names, each name stands for its own buffer. -/
theorem bound_of_mem {binds : List (Binding × Buf)} (names : (binds.map Prod.fst).Nodup)
    (bufs : Buffers Single) {bind : Binding × Buf} (mem : bind ∈ binds) :
    bound binds bufs bind.1 = bufs bind.2 := by
  have found : binds.find? (·.1 = bind.1) = some bind := by
    induction binds with
    | nil => simp at mem
    | cons head rest ih =>
        obtain ⟨fresh, later⟩ := List.nodup_cons.mp names
        rcases List.mem_cons.mp mem with rfl | inRest
        · simp
        · have other : head.1 ≠ bind.1 := fun same =>
            fresh (same ▸ List.mem_map_of_mem inRest)
          rw [List.find?_cons_of_neg (by simpa using other)]
          exact ih later inRest
  simp only [bound, found]

/-- A dispatch leaves a buffer alone that it binds under no writable name. -/
theorem execute_frame (outside : Kernels Single) {kernel : Kernel} (params : List (Param Single))
    {binds : List (Binding × Buf)} (names : (binds.map Prod.fst).Nodup) (bufs : Buffers Single)
    {b : Buf} (untouched : ∀ bind ∈ binds, bind.1 ∈ outputs kernel → bind.2 ≠ b) :
    execute (kernels outside) kernel params binds bufs b = bufs b := by
  simp only [execute]
  split
  next bind found =>
    have mem : bind ∈ binds := List.mem_of_find?_eq_some found
    have here : bind.2 = b := by simpa using List.find?_some found
    have readOnly : bind.1 ∉ outputs kernel := fun writable => untouched bind mem writable here
    simp only [kernels, if_neg readOnly, bound_of_mem names bufs mem, here]
  · rfl

variable (outside : Kernels Single) (v : VecCpu Single)

/-- An op leaves alone every buffer it does not write. -/
theorem exec_frame (bufs : Buffers Single) {o : Op Single} {b : Buf} (apart : b ∉ writes o) :
    v.exec (kernels outside) bufs o b = bufs b := by
  rw [VecCpu.exec]
  split
  · rfl
  · obtain ⟨kind, _, _, _, _, _, _, _, _, _⟩ := o
    cases kind <;> refine execute_frame outside _ (by simp [cpuDispatch]) bufs ?_ <;>
      simp only [writes, List.mem_cons, List.not_mem_nil, or_false, not_or] at apart <;>
      simp [cpuDispatch, outputs] <;> tauto

/-- A list of ops leaves alone every buffer none of them writes. -/
theorem foldl_frame (ops : List (Op Single)) (bufs : Buffers Single) {b : Buf}
    (apart : ∀ o ∈ ops, b ∉ writes o) :
    ops.foldl (v.exec (kernels outside)) bufs b = bufs b := by
  induction ops generalizing bufs with
  | nil => rfl
  | cons o rest ih =>
      obtain ⟨first, later⟩ := List.forall_mem_cons.mp apart
      rw [List.foldl_cons, ih _ later, exec_frame outside v bufs first]

/-! ## Copies -/

/-- One in 32 bits. -/
theorem single_one : (1 : Single) = .finite 1 (by decide +kernel) (by decide +kernel) :=
  Number.ofRat_value _ _

/-- A copy's word is the word copied, whatever finite word it adds nothing of. -/
theorem copied_word (x : Single) {y : Single} (finite : y.isFinite = true) :
    (1 : Single).fma x (0 * y) = x := by
  rw [Number.zero_mul_finite finite, single_one, Number.fma_one_zero]

/-- The lower bounds are finite. -/
def LowerFinite (n : ℕ) (bufs : Buffers Single) : Prop := ∀ i < n, (bufs .LB i).isFinite = true

/-- The lower bounds stay finite. -/
theorem LowerFinite.foldl {bufs : Buffers Single} (lower : LowerFinite v.n bufs)
    (ops : List (Op Single)) (apart : ∀ o ∈ ops, Buf.LB ∉ writes o) :
    LowerFinite v.n (ops.foldl (v.exec (kernels outside)) bufs) := by
  intro i inside
  rw [foldl_frame outside v ops bufs apart]
  exact lower i inside

/-- Two vectors are read alike when they agree below their length. -/
theorem slice_congr {n : ℕ} {a b : Contents Single} (agree : ∀ i < n, a i = b i) :
    slice n 0 a = slice n 0 b := by
  refine List.map_congr_left fun i inside => ?_
  rw [Nat.zero_add]
  exact agree i (List.mem_range.mp inside)

/-- A copy gives its target the vector of its source. -/
theorem exec_copy {bufs : Buffers Single} (lower : LowerFinite v.n bufs) {dst src : Buf}
    (apart : src ≠ dst) (target : dst ≠ .LB) (source : src ≠ .LB) :
    slice v.n 0 (v.exec (kernels outside) bufs (copy dst src) dst) =
      slice v.n 0 (bufs src) := by
  have other : otherThan dst src = .LB := by simp [otherThan, target.symm, source.symm]
  have dispatched : v.exec (kernels outside) bufs (copy dst src) =
      if v.n = 0 then bufs
      else execute (kernels outside) .saxpby [.inl v.n, .inr 1, .inr 0]
        [(.x, src), (.y, .LB), (.dst, dst)] bufs := by
    simp only [VecCpu.exec, copy, other]
    rfl
  refine slice_congr fun i inside => ?_
  rw [dispatched, if_neg (by omega)]
  have found : [(Binding.x, src), (.y, .LB), (.dst, dst)].find? (·.2 = dst) =
      some (.dst, dst) := by
    simp [apart, target.symm]
  simp only [execute, found]
  simp [kernels, outputs, word, coefficient, inside, bound, copied_word _ (lower i inside)]

/-! ## Projections -/

/-- Clamping twice is clamping once. -/
@[simp]
theorem clamp_clamp (x lb ub : Single) : clamp (clamp x lb ub) lb ub = clamp x lb ub := by
  unfold clamp
  grind [Number.lt_self]

/-- A point put into the box. -/
def projection (n : ℕ) (bufs : Buffers Single) (point : List Single) : List Single :=
  (List.range n).map fun i => clamp (point.getD i 0) (bufs .LB i) (bufs .UB i)

/-- A point is in the box already. -/
def Projected (n : ℕ) (bufs : Buffers Single) (point : List Single) : Prop :=
  projection n bufs point = point

/-- Projecting twice is projecting once. -/
theorem projected_projection (n : ℕ) (bufs : Buffers Single) (point : List Single) :
    Projected n bufs (projection n bufs point) := by
  refine List.map_congr_left fun i inside => ?_
  rw [projection, List.getD_eq_getElem?_getD, List.getElem?_map,
    List.getElem?_range (List.mem_range.mp inside)]
  exact clamp_clamp _ _ _

/-- The projection depends on the bounds alone. -/
theorem Projected.congr {n : ℕ} {bufs bufs' : Buffers Single} {point : List Single}
    (projected : Projected n bufs point) (lower : bufs' .LB = bufs .LB)
    (upper : bufs' .UB = bufs .UB) : Projected n bufs' point := by
  rw [Projected, projection, lower, upper]
  exact projected

/-- `box_project` projects its vector. -/
theorem exec_boxProject (bufs : Buffers Single) (x : Buf) :
    slice v.n 0 (v.exec (kernels outside) bufs (boxProject x) x) =
      projection v.n bufs (slice v.n 0 (bufs x)) := by
  have dispatched : v.exec (kernels outside) bufs (boxProject x) =
      if v.n = 0 then bufs
      else execute (kernels outside) .lbBoxProject [.inl v.n]
        [(.x, x), (.lb, .LB), (.ub, .UB)] bufs := by
    simp only [VecCpu.exec]
    rfl
  refine List.map_congr_left fun i inside => ?_
  have within := List.mem_range.mp inside
  rw [dispatched, if_neg (by omega), Nat.zero_add]
  have read : (slice v.n 0 (bufs x))[i]?.getD 0 = bufs x i := by
    simp [slice, List.getElem?_range within]
  simp [execute, kernels, outputs, word, within, bound, read]

/-! ## The driver's lists -/

/-- The head of an iteration copies the point and its gradient. -/
theorem ran_appendTail {bufs : Buffers Single} (lower : LowerFinite v.n bufs) :
    let after := Lbfgsb.appendTail.foldl (v.exec (kernels outside)) bufs
    slice v.n 0 (after .XP) = slice v.n 0 (bufs .X) ∧
      slice v.n 0 (after .GP) = slice v.n 0 (bufs .G) := by
  have lowerXp : LowerFinite v.n (v.exec (kernels outside) bufs (copy .XP .X)) :=
    lower.foldl outside v [copy .XP .X] (by simp)
  simp only [Lbfgsb.appendTail, List.foldl_cons, List.foldl_nil]
  constructor
  · rw [exec_frame outside v _ (by simp), exec_frame outside v _ (by simp),
      exec_frame outside v _ (by simp), exec_copy outside v lower (by simp) (by simp) (by simp)]
  · rw [exec_frame outside v _ (by simp), exec_frame outside v _ (by simp),
      exec_copy outside v lowerXp (by simp) (by simp) (by simp),
      exec_frame outside v _ (by simp)]

/-- A post-evaluation phase leaves the points of the line search alone. -/
theorem appendPost_apart (mc : ℕ) {b : Buf}
    (apart : b ∉ [Buf.SC, .SV, .YV, .DOTS]) : ∀ o ∈ Lbfgsb.appendPost mc, b ∉ writes o := by
  simp only [List.mem_cons, List.not_mem_nil, or_false, not_or] at apart
  simp [Lbfgsb.appendPost, apart]

/-- A restoring phase brings the low point back. -/
theorem ran_restore {bufs : Buffers Single} (lower : LowerFinite v.n bufs) (mc : ℕ) (lx lg : Buf)
    (point : lx ≠ .X ∧ lx ≠ .LB) (gradient : lg ≠ .X ∧ lg ≠ .G ∧ lg ≠ .LB) :
    let after := ([copy .X lx, copy .G lg] ++ Lbfgsb.appendPost mc).foldl
      (v.exec (kernels outside)) bufs
    slice v.n 0 (after .X) = slice v.n 0 (bufs lx) ∧
      slice v.n 0 (after .G) = slice v.n 0 (bufs lg) := by
  have lowerX : LowerFinite v.n (v.exec (kernels outside) bufs (copy .X lx)) :=
    lower.foldl outside v [copy .X lx] (by simp)
  simp only [List.foldl_append, List.foldl_cons, List.foldl_nil]
  constructor
  · rw [foldl_frame outside v _ _ (appendPost_apart mc (by simp)),
      exec_frame outside v _ (by simp),
      exec_copy outside v lower point.1 (by simp) point.2]
  · rw [foldl_frame outside v _ _ (appendPost_apart mc (by simp)),
      exec_copy outside v lowerX gradient.2.1 (by simp) gradient.2.2,
      exec_frame outside v _ (by simpa using gradient.1)]

/-- The ops of a trial: the low point saved first if it is the current one. -/
def trialOps (saving : Prop) [Decidable saving] (step : Single) : List (Op Single) :=
  (if saving then [copy .XLO .X, copy .GLO .G] else []) ++
    [saxpby .X .D .XP step 1 true, boxProject .X]

/-- A trial saves the current point where it is told to. -/
theorem ran_trial_saving {bufs : Buffers Single} (lower : LowerFinite v.n bufs) {saving : Prop}
    [Decidable saving] (saves : saving) (step : Single) :
    let after := (trialOps saving step).foldl (v.exec (kernels outside)) bufs
    slice v.n 0 (after .XLO) = slice v.n 0 (bufs .X) ∧
      slice v.n 0 (after .GLO) = slice v.n 0 (bufs .G) := by
  have lowerXlo : LowerFinite v.n (v.exec (kernels outside) bufs (copy .XLO .X)) :=
    lower.foldl outside v [copy .XLO .X] (by simp)
  simp only [trialOps, if_pos saves, List.foldl_append, List.foldl_cons, List.foldl_nil]
  constructor
  · rw [exec_frame outside v _ (by simp), exec_frame outside v _ (by simp),
      exec_frame outside v _ (by simp), exec_copy outside v lower (by simp) (by simp) (by simp)]
  · rw [exec_frame outside v _ (by simp), exec_frame outside v _ (by simp),
      exec_copy outside v lowerXlo (by simp) (by simp) (by simp),
      exec_frame outside v _ (by simp)]

/-- What a trial writes. -/
theorem trialOps_apart {saving : Prop} [Decidable saving] {step : Single} {b : Buf}
    (point : b ≠ .X) (low : saving → b ≠ .XLO ∧ b ≠ .GLO) :
    ∀ o ∈ trialOps saving step, b ∉ writes o := by
  by_cases saves : saving
  · simp [trialOps, saves, point, low saves]
  · simp [trialOps, saves, point]

/-- A trial point is in the box. -/
theorem ran_trial_projected (bufs : Buffers Single) (saving : Prop) [Decidable saving]
    (step : Single) :
    let after := (trialOps saving step).foldl (v.exec (kernels outside)) bufs
    Projected v.n after (slice v.n 0 (after .X)) := by
  have last : trialOps saving step =
      ((if saving then [copy .XLO .X, copy .GLO .G] else []) ++
        [saxpby .X .D .XP step 1 true]) ++ [boxProject .X] := by
    simp [trialOps]
  dsimp only
  rw [last, List.foldl_append, List.foldl_cons, List.foldl_nil, exec_boxProject]
  refine (projected_projection _ _ _).congr ?_ ?_
  · rw [exec_frame outside v _ (by simp)]
  · rw [exec_frame outside v _ (by simp)]

end DressOn.Stepwise
