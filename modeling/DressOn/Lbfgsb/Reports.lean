import DressOn.Lbfgsb.Evaluations

/-!
# What the driver reports

Every call keeps the kinds of states, so at every accepted or final point `X`, `G` and `fx`
belong to one evaluation, up to the exit at the largest step.
-/

namespace DressOn.Stepwise

open Lib.BinaryFloats Lbfgsb.Vec

variable (outside : Kernels Single) {d : Lbfgsb} {evals : List Evaluation}
  {origin : List Single × List Single}

/-! ## After an evaluation -/

/-- The current point is one of the iteration's evaluations. -/
def Current (d : Lbfgsb) (evals : List Evaluation) : Prop :=
  ∃ e ∈ evals, e.iteration = d.k ∧ e.step = d.step ∧ e.value = d.fx ∧
    d.vector .X = e.point ∧ d.vector .G = e.gradient

/-- The evaluation just made is reported with its own value. -/
theorem Current.reported (current : Current d evals) : Reported d evals := by
  obtain ⟨e, made, -, -, value, point, gradient⟩ := current
  exact ⟨e, made, point, gradient, .inl value⟩

/-- A bracket update either leaves the low point where it is, which the trial is above, or makes
the current point the low point. -/
theorem bracket_low (low : LowHeld d evals origin) (current : Current d evals) :
    d.fiLo.lt d.ft = true ∧ LowHeld d.bracket.1 evals origin ∧ d.bracket.1.lo = d.lo ∧
        d.bracket.1.fiLo = d.fiLo ∨
      LowHeld d.bracket.1 evals origin ∧ d.bracket.1.lo = .current := by
  obtain ⟨e, made, iteration, step, value, point, gradient⟩ := current
  unfold Lbfgsb.bracket
  dsimp only
  split
  next above => exact .inl ⟨above, ⟨low.start, low.tried⟩, rfl, rfl⟩
  · split
    · exact .inr ⟨⟨nofun, fun _ => ⟨e, made, iteration, step, value, point, gradient⟩⟩, rfl⟩
    · exact .inr ⟨⟨nofun, fun _ => ⟨e, made, iteration, step, value, point, gradient⟩⟩, rfl⟩

/-- What a bracket update keeps. -/
structure BracketKeeps (d d' : Lbfgsb) : Prop where
  v : d'.v = d.v
  n : d'.n = d.n
  err : d'.err = d.err
  k : d'.k = d.k
  fx : d'.fx = d.fx
  step : d'.step = d.step
  stepMax : d'.stepMax = d.stepMax
  ft : d'.ft = d.ft
  wolfe : d'.wolfeTest = d.wolfeTest
  phase : d'.phase = d.phase
  await : d'.await = d.await

theorem bracket_keeps (d : Lbfgsb) : BracketKeeps d d.bracket.1 := by
  unfold Lbfgsb.bracket
  dsimp only
  split
  · exact ⟨rfl, rfl, rfl, rfl, rfl, rfl, rfl, rfl, rfl, rfl, rfl⟩
  · split <;> exact ⟨rfl, rfl, rfl, rfl, rfl, rfl, rfl, rfl, rfl, rfl, rfl⟩

/-- What a bracket update keeps of the current point. -/
theorem BracketKeeps.current {d' : Lbfgsb} (keeps : BracketKeeps d d')
    (current : Current d evals) : Current d' evals := by
  unfold Current Lbfgsb.vector at *
  rw [keeps.k, keeps.step, keeps.fx, keeps.n, keeps.v]
  exact current

/-- One pass of the loop ends in the next trial, in a restored low point or at the current
point. -/
theorem bodyA_sound (ground : Grounded d evals) (phase : d.phase = .post)
    (await : d.await = .none) (evaluated : Evaluated evals origin) (low : LowHeld d evals origin)
    (elsewhere : d.lo ≠ .current) (current : Current d evals) (failed : d.wolfeTest = false) :
    Sound (d.bodyA outside).1 (d.bodyA outside).2 evals origin := by
  have keeps := bracket_keeps d
  have updated := bracket_low low current
  unfold Lbfgsb.bodyA
  generalize d.bracket = bracketed at keeps updated ⊢
  obtain ⟨d', newStep⟩ := bracketed
  have ground' : Grounded d' evals := ground.congr keeps.v keeps.n keeps.err
  have current' := keeps.current current
  have held : LowHeld d' evals origin := by
    obtain ⟨-, held, -⟩ | ⟨held, -⟩ := updated <;> exact held
  dsimp only
  split
  next leaves =>
    obtain ⟨largest, -⟩ := Bool.and_eq_true_iff.mp leaves
    obtain ⟨above, -, same, sameFiLo⟩ | ⟨-, moved⟩ := updated
    · -- the trial at the largest step was above the low point
      refine restoreLo_sound outside ground' (keeps.await.trans await) evaluated held
        (same.symm ▸ elsewhere) (.inr ⟨largest, ?_, keeps.wolfe.trans failed, ?_⟩)
      · rw [sameFiLo, keeps.ft]
        exact above
      · obtain ⟨e, made, iteration, step, value, -⟩ := current'
        exact ⟨e, made, iteration, step, value⟩
    · rw [Lbfgsb.restoreLo, if_pos moved]
      exact accept_sound ground' (.inl (keeps.phase.trans phase)) held current'.reported
  · split
    · exact fail_sound _ _ _ (by decide)
    · split
      · exact fail_sound _ _ _ (by decide)
      · exact trial_sound outside (ground'.congr rfl rfl rfl) (keeps.await.trans await) evaluated
          ⟨held.start, held.tried⟩

/-- An evaluated trial is accepted, given up for the low point, or followed by another. -/
theorem afterEval_sound (ground : Grounded d evals) (phase : d.phase = .post)
    (await : d.await = .none) (evaluated : Evaluated evals origin) (low : LowHeld d evals origin)
    (elsewhere : d.lo ≠ .current) (current : Current d evals) :
    Sound (d.afterEval outside).1 (d.afterEval outside).2 evals origin := by
  unfold Lbfgsb.afterEval
  split
  · exact accept_sound ground (.inl phase) low current.reported
  next failed =>
    have failing : d.wolfeTest = false := by simpa using failed
    split
    · exact accept_sound ground (.inl phase) low current.reported
    · dsimp only
      generalize (if 0 ≤ d.lsIter then d.lsIter + 1 else 0) = iteration
      split
      · split
        · exact accept_sound (ground.congr rfl rfl rfl) (.inl phase) ⟨low.start, low.tried⟩
            current.reported
        · split
          · exact fail_sound _ _ _ (by decide)
          next positive =>
            -- the search can only fall back to an evaluated low point
            have tried : d.lo ≠ .start := by
              intro atStart
              rw [(low.start atStart).1] at positive
              exact positive Number.zero_le_zero
            exact restoreLo_sound outside (ground.congr rfl rfl rfl) await evaluated
              ⟨low.start, low.tried⟩ elsewhere (.inl ⟨tried, rfl⟩)
      · exact bodyA_sound outside (ground.congr rfl rfl rfl) phase await evaluated
          ⟨low.start, low.tried⟩ elsewhere current failing

/-! ## Between line searches -/

/-- The start of a line search recomputes the direction, fails or makes the first trial. -/
theorem lineSearchStart_sound (afterPatho : Bool) (ground : Grounded d evals)
    (await : d.await = .none) (evaluated : Evaluated evals origin)
    (here : (d.vector .X, d.vector .G) = origin) (start : (d.vector .XP, d.vector .GP) = origin) :
    Sound (d.lineSearchStart outside afterPatho).1 (d.lineSearchStart outside afterPatho).2
      evals origin := by
  unfold Lbfgsb.lineSearchStart
  dsimp only
  generalize (if (lit (3 * 10 ^ 38)).le (d.sc scSmax).convert = true then kInf
    else (d.sc scSmax).convert) = sm
  split
  · rw [submit_eq]
    generalize opsEq : ([copy .D .DCP, compact 1, dot .G .D scDg,
      Lbfgsb.Vec.stepMax .X .D scSmax] : List (Op Single)) = ops
    have apart : ∀ b ∉ [Buf.D, .ST, .BF, .SC], ∀ o ∈ ops, b ∉ writes o := by
      intro b other
      simp only [List.mem_cons, List.not_mem_nil, or_false, not_or] at other
      simp [← opsEq, other]
    have grounded : ∀ d' : Lbfgsb, d'.v = d.v → d'.n = d.n → d'.err = d.err →
        Grounded (submitted outside .patho ops d') evals := fun d' v n err =>
      (ground.congr v n err).submitted outside .patho (apart _ (by simp)) (apart _ (by simp))
    refine .heading (grounded _ rfl rfl rfl) rfl (by simp [submitted]) await evaluated ?_ ?_
    · rw [vector_submitted outside _ _ (apart _ (by simp)),
        vector_submitted outside _ _ (apart _ (by simp))]
      exact here
    · rw [vector_submitted outside _ _ (apart _ (by simp)),
        vector_submitted outside _ _ (apart _ (by simp))]
      exact start
  · split
    · exact fail_sound _ _ _ (by decide)
    · split
      · exact fail_sound _ _ _ (by decide)
      · refine trial_sound outside (ground.congr rfl rfl rfl) await evaluated
          ⟨fun _ => ⟨rfl, ?_, ?_⟩, fun tried => absurd rfl tried⟩
        · exact congrArg Prod.fst start
        · exact congrArg Prod.snd start

/-- The head of an iteration starts the next line search at the point the caller knows. -/
theorem head_sound (ground : Grounded d evals) (await : d.await = .none)
    (evaluated : Evaluated evals origin) (here : (d.vector .X, d.vector .G) = origin)
    {phase : Phase} (known : phase = .prep ∨ phase = .dir ∨ phase = .dirReset)
    (ops : List (Op Single)) (lower : ∀ o ∈ ops, Buf.LB ∉ writes o)
    (upper : ∀ o ∈ ops, Buf.UB ∉ writes o) (gradient : ∀ o ∈ ops, Buf.G ∉ writes o)
    (point : slice d.v.n 0 (ops.foldl (d.v.exec (kernels outside)) d.v.bufs .X) =
      slice d.v.n 0 (d.v.bufs .X)) :
    Sound (submitted outside phase (ops ++ Lbfgsb.appendTail) d) .busy evals origin := by
  have tail : ∀ b ∉ [Buf.XP, .GP, .SC], ∀ o ∈ Lbfgsb.appendTail, b ∉ writes o := by
    intro b other
    simp only [List.mem_cons, List.not_mem_nil, or_false, not_or] at other
    simp [Lbfgsb.appendTail, other]
  have lowerAll : ∀ o ∈ ops ++ Lbfgsb.appendTail, Buf.LB ∉ writes o :=
    List.forall_mem_append.mpr ⟨lower, tail _ (by simp)⟩
  have upperAll : ∀ o ∈ ops ++ Lbfgsb.appendTail, Buf.UB ∉ writes o :=
    List.forall_mem_append.mpr ⟨upper, tail _ (by simp)⟩
  have finite := ground.lower
  rw [← ground.size] at finite
  obtain ⟨startPoint, startGradient⟩ :=
    ran_appendTail outside d.v (finite.foldl outside d.v ops lower)
  rw [point] at startPoint
  rw [foldl_frame outside d.v ops d.v.bufs gradient] at startGradient
  have herePoint : (submitted outside phase (ops ++ Lbfgsb.appendTail) d).vector .X =
      d.vector .X := by
    simp only [Lbfgsb.vector, submitted, List.foldl_append,
      foldl_frame outside d.v _ _ (tail .X (by simp)), ← ground.size]
    exact point
  have hereGradient : (submitted outside phase (ops ++ Lbfgsb.appendTail) d).vector .G =
      d.vector .G :=
    vector_submitted outside phase d
      (List.forall_mem_append.mpr ⟨gradient, tail _ (by simp)⟩)
  have kept : (submitted outside phase (ops ++ Lbfgsb.appendTail) d).vector .XP = d.vector .X ∧
      (submitted outside phase (ops ++ Lbfgsb.appendTail) d).vector .GP = d.vector .G := by
    simp only [Lbfgsb.vector, submitted, List.foldl_append, ← ground.size]
    exact ⟨startPoint, startGradient⟩
  refine .heading (ground.submitted outside phase lowerAll upperAll) rfl ?_ await evaluated ?_ ?_
  · rcases known with rfl | rfl | rfl <;> simp [submitted]
  · rw [herePoint, hereGradient]
    exact here
  · rw [kept.1, kept.2]
    exact here

/-- A direction phase starts from the point the caller knows; the projection in it changes
nothing, since every evaluated point is in the box. -/
theorem direction_sound (reset : Bool) (ground : Grounded d evals) (await : d.await = .none)
    (evaluated : Evaluated evals origin) (here : (d.vector .X, d.vector .G) = origin) :
    Sound (d.direction outside reset).1 (d.direction outside reset).2 evals origin := by
  have inBox : Projected d.n d.v.bufs (d.vector .X) := by
    obtain ⟨e, made, rfl⟩ := evaluated
    have point : d.vector .X = e.point := congrArg Prod.fst here
    rw [point]
    exact ground.inBox e made
  have grounded : Grounded { d with k := if reset then d.k else d.k + 1 } evals :=
    ground.congr rfl rfl rfl
  cases reset with
  | true =>
      refine head_sound outside grounded await evaluated here (by simp) _ (by simp) (by simp)
        (by simp) ?_
      rw [foldl_frame outside d.v _ _ (by simp)]
  | false =>
      refine head_sound outside grounded await evaluated here (by simp) _ (by simp) (by simp)
        (by simp) ?_
      simp only [Bool.false_eq_true, if_false, List.foldl_append]
      rw [foldl_frame outside d.v [cauchy, _, _] _ (by simp)]
      simp only [List.foldl_cons, List.foldl_nil]
      rw [exec_boxProject, exec_frame outside d.v _ (by simp), exec_frame outside d.v _ (by simp),
        ground.size]
      refine inBox.congr ?_ ?_
      · rw [exec_frame outside d.v _ (by simp), exec_frame outside d.v _ (by simp)]
      · rw [exec_frame outside d.v _ (by simp), exec_frame outside d.v _ (by simp)]

/-! ## Calls -/

/-- Reading the scalars changes none of what the states' kinds are about. -/
theorem withSc_sound {after : Lbfgsb → Lbfgsb × Status}
    (read : ∀ sc, Sound (after { d with sc := sc }).1 (after { d with sc := sc }).2 evals origin) :
    Sound (d.withSc outside after).1 (d.withSc outside after).2 evals origin := by
  unfold Lbfgsb.withSc
  split
  · exact read _
  · exact fail_sound _ _ _ (by decide)

/-- The first direction is headed like every other. -/
theorem prep_sound (scale : Single) (ground : Grounded d evals) (await : d.await = .none)
    (evaluated : Evaluated evals origin) (here : (d.vector .X, d.vector .G) = origin) :
    let called :=
      d.submit outside .prep (saxpby .D .DCP .X scale 0 true :: Lbfgsb.appendTail)
    Sound called.1 called.2 evals origin := by
  refine head_sound outside ground await evaluated here (.inl rfl)
    [saxpby .D .DCP .X scale 0 true] (by simp) (by simp) (by simp) ?_
  rw [foldl_frame outside d.v _ _ (by simp)]

/-- The phase at the initial point ends the run or makes the first direction. -/
theorem afterX0_sound (ground : Grounded d evals) (phase : d.phase = .x0) (await : d.await = .none)
    (first : ∃ e ∈ evals, d.vector .X = e.point ∧ d.vector .G = e.gradient ∧ e.value = d.fx)
    (here : (d.vector .X, d.vector .G) = origin) :
    Sound (d.afterX0 outside).1 (d.afterX0 outside).2 evals origin := by
  obtain ⟨e, made, point, gradient, value⟩ := first
  have evaluated : Evaluated evals origin := ⟨e, made, by rw [← here, point, gradient]⟩
  unfold Lbfgsb.afterX0
  dsimp only
  split
  · refine .converged ground.clean rfl rfl (fun searching => ?_)
      ⟨e, made, point, gradient, .inl value⟩
    simp [Searching, Lbfgsb.readNorms, phase] at searching
  · exact prep_sound outside _ (ground.congr rfl rfl rfl) await evaluated here

/-- A completed direction phase starts the line search, with the memory reset if need be. -/
theorem afterDir_sound (ground : Grounded d evals) (await : d.await = .none)
    (evaluated : Evaluated evals origin) (here : (d.vector .X, d.vector .G) = origin)
    (start : (d.vector .XP, d.vector .GP) = origin) :
    Sound (d.afterDir outside).1 (d.afterDir outside).2 evals origin := by
  unfold Lbfgsb.afterDir
  split
  · split
    · exact direction_sound outside true (ground.congr rfl rfl rfl) await evaluated here
    · exact lineSearchStart_sound outside false ground await evaluated here start
  · exact fail_sound _ _ _ (by decide)

/-! ## Starting -/

/-- A bound the driver uploads is finite. -/
theorem toBound_finite (b : Bound) : (toBound b.1).isFinite = true := by
  obtain ⟨b, number⟩ := b
  have most : fltMax.isFinite = true := by decide +kernel
  have least : (-fltMax).isFinite = true := by decide +kernel
  have above : (toBound (.infinity false)).isFinite = true := by decide +kernel
  have below : (toBound (.infinity true)).isFinite = true := by decide +kernel
  cases b with
  | finite q exact bounded =>
      simp only [toBound]
      split
      · exact most
      · split
        · exact least
        · rfl
  | infinity negative =>
      cases negative with
      | false => exact above
      | true => exact below
  | nan => exact absurd rfl number

/-- An upload that is not refused replaces the head of its buffer. -/
theorem upload_spec {b : Buf} {data : List Single} {d' : Lbfgsb}
    (uploaded : d.upload outside b data = some d') :
    d' = { d with v := { d.v with
      bufs := Function.update d.v.bufs b (overwrite data 0 (d.v.bufs b)) } } := by
  unfold Lbfgsb.upload VecCpu.step at uploaded
  dsimp only at uploaded
  by_cases long : d.v.words b < 0 + data.length
  · rw [if_pos long] at uploaded
    cases uploaded
  · rw [if_neg long] at uploaded
    exact (Option.some.inj uploaded).symm

/-- The phase of a start projects the initial point. -/
theorem init_inBox (size : d.v.n = d.n) :
    let d' := submitted outside .init [boxProject .X, compact 1] d
    Projected d'.n d'.v.bufs (d'.vector .X) := by
  simp only [submitted, Lbfgsb.vector, List.foldl_cons, List.foldl_nil]
  rw [exec_frame outside d.v _ (by simp : Buf.X ∉ writes (compact 1)), ← size, exec_boxProject]
  refine (projected_projection _ _ _).congr ?_ ?_
  · rw [exec_frame outside d.v _ (by simp), exec_frame outside d.v _ (by simp)]
  · rw [exec_frame outside d.v _ (by simp), exec_frame outside d.v _ (by simp)]

/-- A started run waits for the value at the projected initial point. -/
theorem init_sound (ground : Grounded d []) (await : d.await = .none) :
    let called := d.submit outside .init [boxProject .X, compact 1]
    Sound called.1 called.2 [] origin :=
  .asking (ground.submitted outside .init (by simp) (by simp)) (.inl ⟨rfl, rfl, await⟩)
    (init_inBox outside ground.size)

/-- A start either fails or projects the initial point. -/
theorem startOn_sound (x0 : ℕ → Single) (lb ub : ℕ → Bound) (size : d.v.n = d.n)
    (clean : d.err = "") (await : d.await = .none) (origin : List Single × List Single) :
    Sound (d.startOn outside x0 lb ub).1 (d.startOn outside x0 lb ub).2 [] origin := by
  unfold Lbfgsb.startOn
  dsimp only
  split
  · refine fail_sound _ _ _ fun empty => ?_
    have length := congrArg String.length empty
    simp at length
  · split
    · exact fail_sound _ _ _ (by decide)
    next d' uploaded =>
      simp only [Option.bind_eq_some_iff] at uploaded
      obtain ⟨dUb, ⟨dLb, lower, upper⟩, point⟩ := uploaded
      have lower := upload_spec outside lower
      have upper := upload_spec outside upper
      have point := upload_spec outside point
      subst lower upper point
      refine init_sound outside ⟨size, fun i inside => ?_, by simp, clean⟩ await
      have bound : (overwrite ((List.range d.n).map fun i => toBound (lb i).1) 0
          (d.v.bufs .LB)) i = toBound (lb i).1 := by
        simp [overwrite, inside]
      simp only [Function.update_self, Function.update_of_ne, ne_eq, reduceCtorEq,
        not_false_eq_true]
      exact bound ▸ toBound_finite (lb i)

/-- A start either is refused or waits for the value at the initial point. -/
theorem start_sound (n : ℕ) (x0 : ℕ → Single) (lb ub : ℕ → Bound) (p : LbfgsbParams) (d : Lbfgsb)
    (origin : List Single × List Single) :
    Sound (d.start outside n x0 lb ub p).1 (d.start outside n x0 lb ub p).2 [] origin := by
  unfold Lbfgsb.start
  dsimp only
  split
  · exact fail_sound _ _ _ (by decide)
  next positive =>
    split
    · exact fail_sound _ _ _ (by decide)
    · split
      · exact fail_sound _ _ _ (by decide)
      · split
        · exact fail_sound _ _ _ (by decide)
        next v _ accepted made =>
          have size : v.n = n := by
            unfold VecCpu.step at made
            dsimp only at made
            split at made
            · cases made
              exact (accepted rfl).elim
            · cases made
              rfl
          exact startOn_sound outside x0 lb ub size rfl rfl origin

/-! ## Evaluating -/

/-- A new evaluation takes nothing from the low point. -/
theorem LowHeld.cons (low : LowHeld d evals origin) (e : Evaluation) :
    LowHeld d (e :: evals) origin := by
  refine ⟨low.start, fun tried => ?_⟩
  obtain ⟨e', made, held⟩ := low.tried tried
  exact ⟨e', List.mem_cons_of_mem e made, held⟩

/-- The low point stays held while its buffers do. -/
theorem LowHeld.congr {d' : Lbfgsb} (low : LowHeld d evals origin) (k : d'.k = d.k)
    (lo : d'.lo = d.lo) (iLo : d'.iLo = d.iLo) (fxLo : d'.fxLo = d.fxLo)
    (elsewhere : d.lo ≠ .current)
    (same : ∀ b ∉ [Buf.X, .G, .SC, .SV, .YV, .DOTS], d'.vector b = d.vector b) :
    LowHeld d' evals origin := by
  refine ⟨fun atStart => ?_, fun tried => ?_⟩
  · rw [iLo, same .XP (by simp), same .GP (by simp)]
    exact low.start (lo ▸ atStart)
  · rw [lo] at tried ⊢
    rw [same (lowPoint d.lo) (by cases at' : d.lo <;> simp_all [lowPoint]),
      same (lowGradient d.lo) (by cases at' : d.lo <;> simp_all [lowGradient]), k, iLo, fxLo]
    exact low.tried tried

/-- The caller's gradient replaces `G` and nothing else. -/
theorem vector_setGradient {gradient : ℕ → Single} {d' : Lbfgsb}
    (uploaded : d.setGradient outside gradient = some d') {b : Buf} (other : b ≠ .G) :
    d'.vector b = d.vector b := by
  have set := upload_spec outside uploaded
  subst set
  simp [Lbfgsb.vector, Function.update_of_ne other]

/-- What the caller's gradient keeps. -/
theorem Grounded.setGradient {gradient : ℕ → Single} {d' : Lbfgsb} (ground : Grounded d evals)
    (uploaded : d.setGradient outside gradient = some d') : Grounded d' evals := by
  have set := upload_spec outside uploaded
  subst set
  exact ⟨ground.size, fun i inside => ground.lower i inside,
    fun e made => (ground.inBox e made).congr rfl rfl, ground.clean⟩

/-- An evaluation at a point in the box keeps the ground. -/
theorem Grounded.cons (ground : Grounded d evals) {e : Evaluation}
    (inBox : Projected d.n d.v.bufs e.point) : Grounded d (e :: evals) :=
  ⟨ground.size, ground.lower, List.forall_mem_cons.mpr ⟨inBox, ground.inBox⟩, ground.clean⟩

/-! ## Sessions -/

/-- A session whose state is of one of the kinds. -/
abbrev Session.Sound (s : Session) : Prop :=
  Stepwise.Sound s.driver s.status s.evaluations s.origin

/-- The phase at the initial point follows the caller's first evaluation. -/
theorem eval0_sound {e : Evaluation} (ground : Grounded d (e :: evals))
    (point : d.vector .X = e.point) (gradient : d.vector .G = e.gradient) (nfev : ℕ)
    (hist : List Double) :
    let called := Lbfgsb.submit outside .x0
      [pgInf .X .G scPg, dot .X .X scXx, cauchy, saxpby .DCP .XCP .X 1 (-1) false,
        dot .DCP .DCP scNn]
      { d with await := .none, fx := e.value, nfev := nfev, fxHist := hist }
    Stepwise.Sound called.1 called.2 (e :: evals) (e.point, e.gradient) := by
  generalize asked : ({ d with
    await := .none, fx := e.value, nfev := nfev, fxHist := hist } : Lbfgsb) = d'
  have grounded : Grounded d' (e :: evals) := by
    subst asked
    exact ground.congr rfl rfl rfl
  have same : ∀ b ∈ [Buf.X, .G], (submitted outside .x0
      [pgInf .X .G scPg, dot .X .X scXx, cauchy, saxpby .DCP .XCP .X 1 (-1) false,
        dot .DCP .DCP scNn] d').vector b = d.vector b := by
    intro b known
    rw [vector_submitted outside .x0 d' (by rcases List.mem_pair.mp known with rfl | rfl <;> simp)]
    subst asked
    rfl
  refine .started (grounded.submitted outside .x0 (by simp) (by simp)) rfl rfl
    (by subst asked; rfl) ⟨e, List.mem_cons_self, ?_, ?_, by subst asked; rfl⟩ ?_
  · exact (same .X (by simp)).trans point
  · exact (same .G (by simp)).trans gradient
  · exact Prod.ext ((same .X (by simp)).trans point) ((same .G (by simp)).trans gradient)

/-- The post-evaluation phase follows the caller's evaluation of a trial. -/
theorem trial_evaluated_sound {e : Evaluation} (ground : Grounded d (e :: evals))
    (evaluated : Evaluated evals origin) (low : LowHeld d evals origin)
    (elsewhere : d.lo ≠ .current) (iteration : e.iteration = d.k) (step : e.step = d.step)
    (point : d.vector .X = e.point) (gradient : d.vector .G = e.gradient) (nfev : ℕ) :
    let called := Lbfgsb.submit outside .post (dot .G .D scDg :: Lbfgsb.appendPost d.v.mc)
      { d with await := .none, fx := e.value, nfev := nfev }
    Stepwise.Sound called.1 called.2 (e :: evals) origin := by
  have apart : ∀ b ∉ [Buf.SC, .SV, .YV, .DOTS],
      ∀ o ∈ dot .G .D scDg :: Lbfgsb.appendPost d.v.mc, b ∉ writes o := by
    intro b other
    refine List.forall_mem_cons.mpr ⟨?_, appendPost_apart _ other⟩
    simp only [List.mem_cons, not_or] at other
    simp [other.1]
  generalize dot .G .D scDg :: Lbfgsb.appendPost d.v.mc = ops at apart ⊢
  have grounded : Grounded { d with await := .none, fx := e.value, nfev := nfev } (e :: evals) :=
    ground.congr rfl rfl rfl
  have same : ∀ b ∉ [Buf.SC, .SV, .YV, .DOTS],
      (submitted outside .post ops
        { d with await := .none, fx := e.value, nfev := nfev }).vector b = d.vector b :=
    fun b other => vector_submitted outside .post
      { d with await := .none, fx := e.value, nfev := nfev } (apart b other)
  obtain ⟨first, made, start⟩ := evaluated
  refine .tried (grounded.submitted outside .post (apart _ (by simp)) (apart _ (by simp)))
    rfl rfl rfl ⟨first, List.mem_cons_of_mem e made, start⟩ ?_ elsewhere
    ⟨e, List.mem_cons_self, iteration, step, rfl, ?_, ?_⟩
  · refine (low.cons e).congr rfl rfl rfl rfl elsewhere fun b other => same b ?_
    simp only [List.mem_cons, List.not_mem_nil, or_false, not_or] at other
    simp [other]
  · exact (same .X (by simp)).trans point
  · exact (same .G (by simp)).trans gradient

/-- An evaluation the driver asked for keeps the session's state of one of the kinds. -/
theorem evaluate_sound {s : Session} (sound : s.Sound) (value : Double) (gradient : ℕ → Single)
    (asked : s.status = .needEval ∨ s.status = .try) :
    (s.evaluate outside value gradient).Sound := by
  unfold Session.evaluate
  split
  · exact sound
  next d uploaded =>
    have same : d.vector .X = s.driver.vector .X :=
      vector_setGradient outside uploaded (by simp)
    have fields := upload_spec outside uploaded
    cases sound with
    | asking ground control inBox =>
        obtain ⟨busy, -, -⟩ | ⟨need, phase, await⟩ := control
        · simp [busy] at asked
        · have waits : d.await = .eval0 := by rw [fields]; exact await
          have bounds : Projected d.n d.v.bufs (d.vector .X) := by
            rw [same, fields]
            exact inBox.congr rfl rfl
          have grounded : Grounded d
              (⟨d.k, 0, d.vector .X, value, d.vector .G⟩ :: s.evaluations) :=
            (ground.setGradient outside uploaded).cons bounds
          simp only [Session.Sound, need, if_true, Lbfgsb.next, waits]
          exact eval0_sound outside grounded rfl rfl _ _
    | trying ground control evaluated low elsewhere inBox =>
        obtain ⟨busy, -, -⟩ | ⟨trial, phase, await⟩ := control
        · simp [busy] at asked
        · have waits : d.await = .trial := by rw [fields]; exact await
          have bounds : Projected d.n d.v.bufs (d.vector .X) := by
            rw [same, fields]
            exact inBox.congr rfl rfl
          have held : LowHeld d s.evaluations s.origin := by
            refine low.congr ?_ ?_ ?_ ?_ elsewhere fun b other =>
              vector_setGradient outside uploaded fun isG => other (by simp [isG])
            all_goals rw [fields]
          have away : d.lo ≠ .current := by rw [fields]; exact elsewhere
          have grounded : Grounded d
              (⟨d.k, d.step, d.vector .X, value, d.vector .G⟩ :: s.evaluations) :=
            (ground.setGradient outside uploaded).cons bounds
          simp only [Session.Sound, trial, reduceCtorEq, if_false, Lbfgsb.next, waits]
          exact trial_evaluated_sound outside grounded evaluated held away rfl rfl rfl rfl _
    | idle busy _ _ => simp [busy] at asked
    | failed failure _ _ _ => simp [failure] at asked
    | started _ busy _ _ _ _ => simp [busy] at asked
    | heading _ busy _ _ _ _ _ => simp [busy] at asked
    | tried _ busy _ _ _ _ _ _ => simp [busy] at asked
    | restoring _ busy _ _ _ _ => simp [busy] at asked
    | accepted _ accept _ _ _ _ => simp [accept] at asked
    | converged _ done _ _ _ => simp [done] at asked

/-- Going on keeps the session's state of one of the kinds. -/
theorem resume_sound {s : Session} (sound : s.Sound) (asked : s.status ≠ .needEval)
    (tries : s.status ≠ .try) : (s.resume outside).Sound := by
  unfold Session.resume Session.Sound Lbfgsb.next
  cases sound with
  | idle busy phase await =>
      simp only [await, Lbfgsb.completed, phase]
      exact fail_sound _ _ _ (by decide)
  | failed failure phase await reason =>
      simp only [await, if_neg reason, failure]
      exact .failed rfl phase await reason
  | asking ground control inBox =>
      obtain ⟨busy, phase, await⟩ | ⟨need, -, -⟩ := control
      · simp only [await, Lbfgsb.completed, phase, busy]
        exact .asking (ground.congr rfl rfl rfl) (.inr ⟨rfl, rfl, rfl⟩) inBox
      · exact absurd need asked
  | started ground busy phase await first here =>
      simp only [await, Lbfgsb.completed, phase, busy]
      exact withSc_sound outside fun sc =>
        afterX0_sound outside (ground.congr rfl rfl rfl) phase await first here
  | heading ground busy phase await evaluated here start =>
      simp only [await, Lbfgsb.completed, busy]
      have search : ∀ sc afterPatho, Sound
          (Lbfgsb.lineSearchStart outside afterPatho { s.driver with sc := sc }).1
          (Lbfgsb.lineSearchStart outside afterPatho { s.driver with sc := sc }).2
          s.evaluations s.origin := fun sc afterPatho =>
        lineSearchStart_sound outside afterPatho (ground.congr rfl rfl rfl) await evaluated here
          start
      rcases phase with phase | phase | phase | phase <;> simp only [phase]
      · exact withSc_sound outside fun sc => search sc false
      · exact withSc_sound outside fun sc =>
          afterDir_sound outside (ground.congr rfl rfl rfl) await evaluated here start
      · exact withSc_sound outside fun sc => search sc false
      · exact withSc_sound outside fun sc => search sc true
  | trying ground control evaluated low elsewhere inBox =>
      obtain ⟨busy, phase, await⟩ | ⟨trial, -, -⟩ := control
      · simp only [await, Lbfgsb.completed, phase, busy]
        exact .trying (ground.congr rfl rfl rfl) (.inr ⟨rfl, rfl, rfl⟩) evaluated
          ⟨low.start, low.tried⟩ elsewhere inBox
      · exact absurd trial tries
  | tried ground busy phase await evaluated low elsewhere current =>
      simp only [await, Lbfgsb.completed, phase, busy]
      exact withSc_sound outside fun sc =>
        afterEval_sound outside (ground.congr rfl rfl rfl) phase await evaluated
          ⟨low.start, low.tried⟩ elsewhere current
  | restoring ground busy phase await low reported =>
      simp only [await, Lbfgsb.completed, phase, busy]
      exact withSc_sound outside fun sc =>
        accept_sound (ground.congr rfl rfl rfl) (.inr phase) ⟨low.start, low.tried⟩ reported
  | accepted ground accept phase await low reported =>
      simp only [await, accept, if_true]
      obtain ⟨e, made, point, gradient, -⟩ := reported
      exact direction_sound outside false (ground.congr rfl rfl rfl) rfl
        ⟨e, made, by rw [point, gradient]⟩ rfl
  | converged clean done await low reported =>
      simp only [await, clean, if_true, done]
      exact .converged clean rfl await low reported

/-- One call keeps the session's state of one of the kinds. -/
theorem advance_sound {s : Session} (sound : s.Sound) (input : Input) :
    (s.advance outside input).Sound := by
  cases input with
  | start n x0 lb ub p => exact start_sound outside n x0 lb ub p s.driver ([], [])
  | next value gradient =>
      unfold Session.advance
      dsimp only
      split
      next need => exact evaluate_sound outside sound value gradient (.inl need)
      next trial => exact evaluate_sound outside sound value gradient (.inr trial)
      next asked tries => exact resume_sound outside sound asked tries

/-- A session of a driver that was never started. -/
def session (v : VecCpu Single) (inputs : List Input) : Session :=
  inputs.foldl (Session.advance outside) (.fresh v)

/-- Every state of a session is of one of the kinds. -/
theorem session_sound (v : VecCpu Single) (inputs : List Input) :
    (session outside v inputs).Sound := by
  unfold session
  induction inputs using List.reverseRecOn with
  | nil => exact .idle rfl rfl rfl
  | append_singleton earlier input ih =>
      rw [List.foldl_append]
      exact advance_sound outside ih input

/-- At every accepted or final point `X` and `G` are the point and the gradient of one
evaluation and `fx` is its value, unless the search left at its largest step; and throughout a
line search the low point's location holds what it is recorded with. -/
theorem reports_together (v : VecCpu Single) (inputs : List Input) :
    let s := session outside v inputs
    (s.status = .accept ∨ s.status = .converged → Reported s.driver s.evaluations) ∧
      (Searching s.driver → LowHeld s.driver s.evaluations s.origin) := by
  dsimp only
  have sound := session_sound outside v inputs
  generalize session outside v inputs = s at sound
  cases sound with
  | idle busy phase await => simp [busy, Searching, phase, await]
  | failed failure phase await reason => simp [failure, Searching, phase, await]
  | asking ground control inBox =>
      obtain ⟨status, phase, await⟩ | ⟨status, phase, await⟩ := control <;>
        simp [status, Searching, phase, await]
  | started ground busy phase await first here => simp [busy, Searching, phase, await]
  | heading ground busy phase await evaluated here start =>
      rcases phase with phase | phase | phase | phase <;> simp [busy, Searching, phase, await]
  | trying ground control evaluated low elsewhere inBox =>
      obtain ⟨status, -, -⟩ | ⟨status, -, -⟩ := control <;> simp [status, low]
  | tried ground busy phase await evaluated low elsewhere current => simp [busy, low]
  | restoring ground busy phase await low reported => simp [busy, low]
  | accepted ground accept phase await low reported => simp [reported, low]
  | converged clean done await low reported => exact ⟨fun _ => reported, low⟩

/-! ## The exit at the largest step -/

/-- The kernels on one coordinate with an empty history and no bound along the direction. -/
def oneCoordinate : Kernels Single := fun kernel params bufs name i =>
  let moved := clamp (bufs .x 0 - bufs .g 0) (bufs .lb 0) (bufs .ub 0)
  match kernel with
  | .lbPgInf => if i = word (params 1) then (moved - bufs .x 0).abs else bufs name i
  | .lbStepMax => if i = word (params 1) then fltMax else bufs name i
  | .lbMultiDot =>
      if i = word (params 5) then bufs .a 0 * bufs .vv 0
      else if i = word (params 5) + 1 then 0
      else bufs name i
  | .lbCauchy => if name = .xcp ∧ i = 0 then moved else bufs name i
  | _ => bufs name i

/-- An absent bound. -/
def absent (negative : Bool) : Bound := ⟨.infinity negative, nofun⟩

/-- A caller on one unbounded coordinate from zero with largest step two, whose values are zero,
minus one at step one and a huge one at step two, with slope minus one throughout. -/
def hugeAtTwo : List Input :=
  let goOn : Input := .next 0 fun _ => 0
  let answer : Double → Input := fun value => .next value fun _ => -1
  [.start 1 (fun _ => 0) (fun _ => absent true) (fun _ => absent false) { maxStep := lit 2 },
    goOn, answer 0, goOn, goOn, goOn, answer (lit (-1)), goOn, goOn,
    answer (lit (6 * 2 ^ 1017)), goOn, goOn]

/-- The cubic through the low point and the huge value overflows, the search leaves at step two
for the low point at step one, and the huge value is reported with the point of step one. -/
theorem step_max_exit_keeps_value :
    let s := session oneCoordinate .empty hugeAtTwo
    s.status = .accept ∧ s.driver.vector .X = [1] ∧ s.driver.fx = lit (6 * 2 ^ 1017) ∧
      ¬ ∃ e ∈ s.evaluations, s.driver.vector .X = e.point ∧ s.driver.vector .G = e.gradient ∧
        e.value = s.driver.fx := by
  decide +kernel

end DressOn.Stepwise
