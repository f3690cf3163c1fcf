import DressOn.Lbfgsb.Reports

/-!
# What a call of the driver leads to

A call either fails, submits a phase, asks for an evaluation, accepts a point or converges. The
current point is the caller's last evaluated one from the phase behind an evaluation to the
answer, unless the line search restores its low point in between.
-/

namespace DressOn.Stepwise

open Lib.BinaryFloats Lbfgsb.Vec

namespace Lbfgsb

/-- The delta test of `accept`. -/
def deltaTest (d : Lbfgsb) : Bool :=
  let fxd := d.fxHist.getD (d.k % d.p.past.toNat) 0
  decide (0 < d.p.past ∧ d.p.past ≤ d.k) &&
    (fxd - d.fx).abs.le (d.p.delta * maximum (maximum d.fx.abs fxd.abs) 1)

/-- The convergence tests of `accept`. -/
def stops (d : Lbfgsb) : Bool :=
  gradTest d || deltaTest d || decide (d.p.maxIterations ≠ 0 ∧ d.p.maxIterations ≤ d.k)

/-- The low point is being restored, and the norms that phase leaves pass a convergence test. -/
def stopsRestored (outside : Kernels Single) (d : Lbfgsb) : Bool :=
  decide (d.phase = .restore) &&
    match d.v.step (kernels outside) (.read .SC scWords 0) with
    | (_, .data words) => stops (readNorms { d with sc := fun i => words.getD i 0 })
    | _ => false

end Lbfgsb

/-- What a call leads to: `n` coordinates, and when it converges, the point it converges at and
the condition under which it does. -/
structure Led (n : ℕ) (point : List Single) (ends : Prop) (called : Lbfgsb × Status) : Prop where
  n : called.1.n = n
  busy : called.2 = .busy → called.1.await = .none ∧ called.1.phase ≠ .x0 ∧ called.1.phase ≠ .post
  asked : called.2 = .needEval ∨ called.2 = .try →
    called.1.await = .eval0 ∨ called.1.await = .trial
  accepted : called.2 = .accept → called.1.await = .accept
  converged : called.2 = .converged → called.1.vector .X = point ∧ ends

variable (outside : Kernels Single) {d : Lbfgsb} {n : ℕ} {point : List Single} {ends : Prop}

/-- A failure leads anywhere. -/
theorem Led.fail (why : String) (size : d.n = n) : Led n point ends (d.fail why) :=
  ⟨size, nofun, nofun, nofun, nofun⟩

/-- A phase behind no evaluation is submitted. -/
theorem Led.submit {phase : Phase} (ops : List (Op Single)) (size : d.n = n)
    (await : d.await = .none) (ahead : phase ≠ .x0 ∧ phase ≠ .post) :
    Led n point ends (d.submit outside phase ops) := by
  rw [submit_eq]
  exact ⟨size, fun _ => ⟨await, ahead⟩, nofun, nofun, nofun⟩

/-- A point is accepted, or converged at when a test passes. -/
theorem Led.accept (size : d.n = n) (here : d.vector .X = point) (stops : d.stops = true → ends) :
    Led n point ends d.accept := by
  unfold Lbfgsb.accept
  dsimp only
  split
  next gradient =>
    exact ⟨size, nofun, nofun, nofun, fun _ => ⟨here, stops (by simp [Lbfgsb.stops, gradient])⟩⟩
  · split
    next delta =>
      refine ⟨size, nofun, nofun, nofun, fun _ => ⟨here, stops ?_⟩⟩
      obtain ⟨past, enough, small⟩ := delta
      have passes : d.deltaTest = true := by
        unfold Lbfgsb.deltaTest
        rw [decide_eq_true ⟨past, enough⟩, Bool.true_and]
        exact small
      simp [Lbfgsb.stops, passes]
    · split
      next iterations =>
        refine ⟨size, nofun, nofun, nofun, fun _ => ⟨here, stops ?_⟩⟩
        simp only [Lbfgsb.stops, Bool.or_eq_true, decide_eq_true_eq]
        exact .inr iterations
      · exact ⟨size, nofun, nofun, fun _ => rfl, nofun⟩

/-- A trial point is left to the objective. -/
theorem Led.trial (size : d.n = n) (await : d.await = .none) :
    Led n point ends (d.trial outside) := by
  unfold Lbfgsb.trial
  exact .submit outside _ size await ⟨nofun, nofun⟩

/-- The search for a direction leads on. -/
theorem Led.direction (reset : Bool) (size : d.n = n) (await : d.await = .none) :
    Led n point ends (d.direction outside reset) := by
  unfold Lbfgsb.direction
  refine .submit outside _ size await ?_
  cases reset <;> exact ⟨nofun, nofun⟩

/-- The low point is the current one already, or it is restored. -/
theorem Led.restoreLo (size : d.n = n) (await : d.await = .none) (here : d.vector .X = point)
    (free : ends) : Led n point ends (d.restoreLo outside) := by
  unfold Lbfgsb.restoreLo
  split
  · exact .accept size here fun _ => free
  · exact .submit outside _ size await ⟨nofun, nofun⟩

/-- The top of the loop ends at the point, or leads on. -/
theorem Led.bodyA (size : d.n = n) (await : d.await = .none) (here : d.vector .X = point)
    (free : ends) : Led n point ends (d.bodyA outside) := by
  have bracketed : d.bracket.1.n = d.n ∧ d.bracket.1.await = d.await ∧
      d.bracket.1.vector .X = d.vector .X := by
    unfold Lbfgsb.bracket
    dsimp only
    split
    · exact ⟨rfl, rfl, rfl⟩
    · split <;> exact ⟨rfl, rfl, rfl⟩
  unfold Lbfgsb.bodyA
  generalize d.bracket = low at bracketed ⊢
  obtain ⟨low, newStep⟩ := low
  obtain ⟨sameN, sameAwait, sameX⟩ := bracketed
  dsimp only
  split
  · exact .restoreLo outside (sameN.trans size) (sameAwait.trans await) (sameX.trans here) free
  · split
    · exact .fail _ (sameN.trans size)
    · split
      · exact .fail _ (sameN.trans size)
      · exact .trial outside (sameN.trans size) (sameAwait.trans await)

/-- An evaluated trial is accepted where it is, given up for the low point or followed by
another. -/
theorem Led.afterEval (size : d.n = n) (await : d.await = .none) (here : d.vector .X = point)
    (free : ends) : Led n point ends (d.afterEval outside) := by
  unfold Lbfgsb.afterEval
  split
  · exact .accept size here fun _ => free
  · split
    · exact .accept size here fun _ => free
    · dsimp only
      generalize (if 0 ≤ d.lsIter then d.lsIter + 1 else 0) = iteration
      split
      · split
        · exact .accept size here fun _ => free
        · split
          · exact .fail _ size
          · exact .restoreLo outside size await here free
      · exact .bodyA outside size await here free

/-- The start of a line search leads on. -/
theorem Led.lineSearchStart (afterPatho : Bool) (size : d.n = n) (await : d.await = .none) :
    Led n point ends (d.lineSearchStart outside afterPatho) := by
  unfold Lbfgsb.lineSearchStart
  dsimp only
  generalize (if (lit (3 * 10 ^ 38)).le (d.sc scSmax).convert = true then kInf
    else (d.sc scSmax).convert) = sm
  split
  · exact .submit outside _ size await ⟨nofun, nofun⟩
  · split
    · exact .fail _ size
    · split
      · exact .fail _ size
      · exact .trial outside size await

/-- What holds whatever is read holds after the read. -/
theorem Led.withSc {after : Lbfgsb → Lbfgsb × Status} (size : d.n = n)
    (read : ∀ sc, Led n point ends (after { d with sc := sc })) :
    Led n point ends (d.withSc outside after) := by
  unfold Lbfgsb.withSc
  split
  · exact read _
  · exact .fail _ size

/-- The first evaluation ends at the point, or leads on. -/
theorem Led.afterX0 (size : d.n = n) (await : d.await = .none) (here : d.vector .X = point)
    (free : ends) : Led n point ends (d.afterX0 outside) := by
  unfold Lbfgsb.afterX0
  dsimp only
  split
  · exact ⟨size, nofun, nofun, nofun, fun _ => ⟨here, free⟩⟩
  · exact .submit outside _ size await ⟨nofun, nofun⟩

/-- A direction that is found leads on. -/
theorem Led.afterDir (size : d.n = n) (await : d.await = .none) :
    Led n point ends (d.afterDir outside) := by
  unfold Lbfgsb.afterDir
  split
  · split
    · exact .direction outside true size await
    · exact .lineSearchStart outside false size await
  · exact .fail _ size

/-- A call without an evaluation converges at the current point, right behind an evaluation or at
a restored low point. -/
theorem completed_led (await : d.await = .none) :
    Led d.n (d.vector .X)
      (d.phase = .x0 ∨ d.phase = .post ∨ d.stopsRestored outside = true)
      (d.completed outside) := by
  unfold Lbfgsb.completed
  cases phase : d.phase with
  | none => exact .fail _ rfl
  | init => exact ⟨rfl, nofun, fun _ => .inl rfl, nofun, nofun⟩
  | x0 => exact .withSc outside rfl fun _ => .afterX0 outside rfl await rfl (.inl rfl)
  | prep => exact .withSc outside rfl fun _ => .lineSearchStart outside false rfl await
  | dirReset => exact .withSc outside rfl fun _ => .lineSearchStart outside false rfl await
  | dir => exact .withSc outside rfl fun _ => .afterDir outside rfl await
  | patho => exact .withSc outside rfl fun _ => .lineSearchStart outside true rfl await
  | trial => exact ⟨rfl, nofun, fun _ => .inr rfl, nofun, nofun⟩
  | post =>
      exact .withSc outside rfl fun _ => .afterEval outside rfl await rfl (.inr (.inl rfl))
  | restore =>
      show Led _ _ _ (Lbfgsb.withSc outside (fun d => (Lbfgsb.readNorms d).accept) d)
      unfold Lbfgsb.withSc
      split
      next words read =>
        refine .accept rfl rfl fun stops => .inr (.inr ?_)
        simp only [Lbfgsb.stopsRestored, phase, decide_true, Bool.true_and, read]
        exact stops
      · exact .fail _ rfl

/-- A call behind an evaluation submits a phase and leaves the point where it is. -/
theorem next_evaluated (value : Double) (asked : d.await = .eval0 ∨ d.await = .trial) :
    (d.next outside value).2 = .busy ∧ (d.next outside value).1.n = d.n ∧
      (d.next outside value).1.await = .none ∧
      (d.next outside value).1.vector .X = d.vector .X := by
  unfold Lbfgsb.next
  rcases asked with await | await <;> rw [await] <;> dsimp only <;> rw [submit_eq]
  · refine ⟨rfl, rfl, rfl, ?_⟩
    rw [vector_submitted outside .x0 _ (by simp)]
    rfl
  · refine ⟨rfl, rfl, rfl, ?_⟩
    rw [vector_submitted outside .post _ (List.forall_mem_cons.mpr ⟨by simp,
      appendPost_apart _ (by simp)⟩)]
    rfl

/-- A call behind an accepted point goes on with the next direction. -/
theorem next_accepted (value : Double) (accepted : d.await = .accept) :
    Led d.n point ends (d.next outside value) := by
  unfold Lbfgsb.next
  rw [accepted]
  exact .direction outside false rfl rfl

/-- Where nothing is awaited the value is taken at once. -/
theorem next_completed (value : Double) (await : d.await = .none) :
    d.next outside value = d.completed outside := by
  unfold Lbfgsb.next
  rw [await]

/-- The caller's gradient leaves the rest of the driver. -/
theorem setGradient_kept {gradient : ℕ → Single} {d' : Lbfgsb}
    (uploaded : d.setGradient outside gradient = some d') :
    d'.n = d.n ∧ d'.await = d.await ∧ d'.vector .X = d.vector .X := by
  have same := vector_setGradient outside uploaded (b := .X) nofun
  have set := upload_spec outside uploaded
  refine ⟨?_, ?_, same⟩ <;> rw [set]

/-- A start fails or submits the first phase. -/
theorem start_led (x0 : ℕ → Single) (lb ub : ℕ → Bound) (p : LbfgsbParams) (d : Lbfgsb) :
    Led n point ends (d.start outside n x0 lb ub p) := by
  unfold Lbfgsb.start
  dsimp only
  split
  · exact .fail _ rfl
  · split
    · exact .fail _ rfl
    · split
      · exact .fail _ rfl
      · split
        · exact .fail _ rfl
        · unfold Lbfgsb.startOn
          dsimp only
          split
          · exact .fail _ rfl
          · split
            · exact .fail _ rfl
            next started uploaded =>
              simp only [Option.bind_eq_some_iff] at uploaded
              obtain ⟨dUb, ⟨dLb, lower, upper⟩, at0⟩ := uploaded
              have lower := upload_spec outside lower
              have upper := upload_spec outside upper
              have at0 := upload_spec outside at0
              subst lower upper at0
              exact .submit outside _ rfl rfl ⟨nofun, nofun⟩

end DressOn.Stepwise
