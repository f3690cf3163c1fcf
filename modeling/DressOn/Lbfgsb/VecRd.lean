import DressOn.Lbfgsb.Vec
import DressOn.Lib.Lockstep
import DressOn.Lib.Runs
import Mathlib.Algebra.Order.Group.Unbundled.Abs
import Mathlib.Algebra.Order.Ring.Int

/-!
# The GPU backend and its site cache

`VecRd` keeps a params block and a uniform set for every site: a kernel, its buffers,
and the params unless the op is dynamic. A phase looks up or makes its sites, writes
the params blocks that changed, and then records one compute list; the list runs when
the submit is waited out.

Every device object is assumed to be made, and every kernel's bindings to be named.
Byte counts are assumed not to wrap.
-/

namespace DressOn.Lbfgsb.Vec

variable {Scalar : Type*}

/-- The key of a site: `params` is `none` for a dynamic one. -/
structure Key (Scalar : Type*) where
  kernel : Kernel
  bufs : List Buf
  params : Option (List (Param Scalar))
deriving DecidableEq

/-- `Site`: the params block on the device, the words last written to it, and the
buffers of its uniform set. -/
structure Site (Scalar : Type*) where
  block : List (Param Scalar)
  words : List (Param Scalar)
  binds : List (Binding × Buf)

/-- `Rec`: a recorded dispatch. -/
structure Rec (Scalar : Type*) where
  kernel : Kernel
  site : Key Scalar
  groups : ℕ

/-- `VecRd`. -/
structure VecRd (Scalar : Type*) where
  n : ℕ
  mc : ℕ
  words : Buf → ℕ
  bufs : Buffers Scalar
  sites : Key Scalar → Option (Site Scalar)
  inFlight : Option (List (Rec Scalar))

/-- std140 blocks round to 16 bytes. -/
def padded (params : List (Param Scalar)) : List (Param Scalar) :=
  params ++ List.replicate ((params.length + 3) / 4 * 4 - params.length) (.inl 0)

/-- `skey`. -/
def siteKey (o : Op Scalar) (n mc : ℕ) : Key Scalar :=
  let d := describe o n mc
  ⟨d.kernel, d.binds.map Prod.snd, if o.dyn then none else some d.params⟩

/-- A site found or made for a params block; a block that differs is written again. -/
def Site.written [DecidableEq Scalar] (site : Option (Site Scalar))
    (words : List (Param Scalar)) (binds : List (Binding × Buf)) : Site Scalar :=
  match site with
  | none => ⟨words, words, binds⟩
  | some site => if site.words ≠ words then { site with block := words, words := words } else site

section Device

variable [DecidableEq Scalar] (feq : Scalar → Scalar → Bool)

/-- Whether a dynamic site was used before in this phase with other coefficients: the
floats are compared, and only they. -/
def conflicts (seen : Option (Op Scalar)) (o : Op Scalar) : Bool :=
  match seen with
  | some earlier => !feq earlier.fa o.fa || !feq earlier.fb o.fb
  | none => false

/-- Pass 1 of `run`: the sites it leaves, and the recorded dispatches unless it is refused. -/
def prepare (n mc : ℕ) : (Key Scalar → Option (Site Scalar)) → (Key Scalar → Option (Op Scalar)) →
    List (Op Scalar) → (Key Scalar → Option (Site Scalar)) × Option (List (Rec Scalar))
  | sites, _, [] => (sites, some [])
  | sites, dynSeen, o :: rest =>
      let d := describe o n mc
      let key := siteKey o n mc
      if o.dyn && conflicts feq (dynSeen key) o then (sites, none)
      else
        let dynSeen := if o.dyn then Function.update dynSeen key (some o) else dynSeen
        let site := Site.written (sites key) (padded d.params) d.binds
        let (sites, recs) := prepare n mc (Function.update sites key (some site)) dynSeen rest
        (sites, recs.map fun recs => ⟨d.kernel, key, d.groups⟩ :: recs)

variable [Zero Scalar] (kernels : Kernels Scalar)

/-- A recorded dispatch reads its site's params block. -/
def execRec (sites : Key Scalar → Option (Site Scalar)) (bufs : Buffers Scalar)
    (rec : Rec Scalar) : Buffers Scalar :=
  if rec.groups = 0 then bufs
  else match sites rec.site with
    | some site => execute kernels rec.kernel site.block site.binds bufs
    | none => bufs

namespace VecRd

/-- A backend before its first setup. -/
def empty : VecRd Scalar := ⟨0, 0, fun _ => 0, fun _ _ => 0, fun _ => none, none⟩

/-- `sync`: the submit in flight is waited out. -/
def sync (v : VecRd Scalar) : VecRd Scalar :=
  match v.inFlight with
  | none => v
  | some recs => { v with bufs := recs.foldl (execRec kernels v.sites) v.bufs, inFlight := none }

/-- `VecRd::setup`, `upload`, `read` and `run`. -/
def step (v : VecRd Scalar) : Call Scalar → VecRd Scalar × Answer Scalar
  | .setup n mcap =>
      if n = 0 ∨ mcap = 0 ∨ maxHistory < mcap then (v, .refused)
      else (⟨n, mcap, fun b => bufWords b n mcap, fun _ _ => 0, fun _ => none, none⟩, .ok)
  | .upload b data off =>
      if v.words b < off + data.length then (v, .refused)
      else
        let v := v.sync kernels
        ({ v with bufs := Function.update v.bufs b (overwrite data off (v.bufs b)) }, .ok)
  | .read b words off =>
      if v.words b < off + words then (v, .refused)
      else
        let v := v.sync kernels
        (v, .data (slice words off (v.bufs b)))
  | .run ops =>
      if v.n = 0 then (v, .refused)
      else
        let v := v.sync kernels
        match prepare feq v.n v.mc v.sites (fun _ => none) ops with
        | (sites, none) => ({ v with sites := sites }, .refused)
        | (sites, some recs) => ({ v with sites := sites, inFlight := some recs }, .ok)

end VecRd

end Device

/-! ## The sites of a phase -/

section Sites

/-- The names a kernel binds buffers under, in order. -/
def Kernel.names : Kernel → List Binding
  | .lbBoxProject => [.x, .lb, .ub]
  | .lbPgInf => [.x, .g, .lb, .ub, .dst]
  | .lbStepMax => [.x, .d, .lb, .ub, .dst]
  | .lbMultiDot => [.a, .vv, .dst]
  | .lbCompact => [.dots, .st, .bf]
  | .lbRingStore => [.st, .s, .y, .S, .Y]
  | .lbApplyM => [.st, .bf, .vin, .vout]
  | .lbCauchy => [.x, .g, .lb, .ub, .S, .Y, .st, .bf, .xcp, .vecc, .wk, .iset]
  | .lbSubspace => [.x, .g, .lb, .ub, .S, .Y, .st, .bf, .xcp, .vecc, .iset, .drt, .wk]
  | .saxpby => [.x, .y, .dst]

theorem names_describe (o : Op Scalar) (n mc : ℕ) :
    (describe o n mc).binds.map Prod.fst = (describe o n mc).kernel.names := by
  obtain ⟨kind, _, _, _, _, _, _, _, _, _⟩ := o
  cases kind <;> rfl

/-- A site's key says what its uniform set binds. -/
theorem binds_of_siteKey {o o' : Op Scalar} {n mc : ℕ} (same : siteKey o n mc = siteKey o' n mc) :
    (describe o n mc).kernel = (describe o' n mc).kernel ∧
      (describe o n mc).binds = (describe o' n mc).binds := by
  obtain ⟨kernel, bufs, -⟩ := Key.mk.inj same
  refine ⟨kernel, ?_⟩
  have names := names_describe o n mc
  rw [kernel, ← names_describe o' n mc] at names
  rw [← List.zip_unzip (describe o n mc).binds, ← List.zip_unzip (describe o' n mc).binds]
  simp only [List.unzip_eq_map, names, bufs]

/-- What holds of every site: the device has the words last written, its set binds what
the key says, and a static site's words are its key's. -/
structure Site.Good (n mc : ℕ) (key : Key Scalar) (site : Site Scalar) : Prop where
  block : site.block = site.words
  binds : ∀ o, siteKey o n mc = key → site.binds = (describe o n mc).binds
  words : ∀ params, key.params = some params → site.words = padded params

/-- Every site is good. -/
abbrev AllGood (n mc : ℕ) (sites : Key Scalar → Option (Site Scalar)) : Prop :=
  ∀ key site, sites key = some site → Site.Good n mc key site

/-- Dynamic ops of one list that share a site have the same params. -/
def Agree (n mc : ℕ) (ops : List (Op Scalar)) : Prop :=
  ∀ o ∈ ops, ∀ o' ∈ ops, o.dyn = true → o'.dyn = true → siteKey o n mc = siteKey o' n mc →
    (describe o n mc).params = (describe o' n mc).params

variable [DecidableEq Scalar] {feq : Scalar → Scalar → Bool} {n mc : ℕ}

/-- A site that has been found or made for an op holds the op's params. -/
theorem Site.written_spec (o : Op Scalar) {sites : Key Scalar → Option (Site Scalar)}
    (good : AllGood n mc sites) :
    Site.Good n mc (siteKey o n mc) (Site.written (sites (siteKey o n mc))
        (padded (describe o n mc).params) (describe o n mc).binds) ∧
      (Site.written (sites (siteKey o n mc)) (padded (describe o n mc).params)
        (describe o n mc).binds).block = padded (describe o n mc).params := by
  have static : ∀ params, (siteKey o n mc).params = some params →
      padded (describe o n mc).params = padded params := by
    intro params key
    simp only [siteKey] at key
    split at key
    · cases key
    · rw [Option.some.inj key]
  cases found : sites (siteKey o n mc) with
  | none =>
      refine ⟨⟨rfl, fun o' same => ?_, static⟩, rfl⟩
      exact (binds_of_siteKey same.symm).2
  | some site =>
      obtain ⟨block, binds, words⟩ := good _ site found
      rw [Site.written]
      split
      next => exact ⟨⟨rfl, binds, static⟩, rfl⟩
      next same =>
        rw [ne_eq, not_not] at same
        exact ⟨⟨block, binds, words⟩, block.trans same⟩

/-- Writing an op's site keeps every site good. -/
theorem AllGood.update {sites : Key Scalar → Option (Site Scalar)} (good : AllGood n mc sites)
    (o : Op Scalar) :
    AllGood n mc (Function.update sites (siteKey o n mc) (some (Site.written
      (sites (siteKey o n mc)) (padded (describe o n mc).params) (describe o n mc).binds))) := by
  intro key site found
  by_cases here : key = siteKey o n mc
  · subst here
    rw [Function.update_self] at found
    obtain rfl := Option.some.inj found
    exact (Site.written_spec o good).1
  · rw [Function.update_of_ne here] at found
    exact good key site found

/-- Preparing a phase keeps every site good. -/
theorem prepare_good {sites : Key Scalar → Option (Site Scalar)} (good : AllGood n mc sites)
    (dynSeen : Key Scalar → Option (Op Scalar)) (ops : List (Op Scalar)) :
    AllGood n mc (prepare feq n mc sites dynSeen ops).1 := by
  induction ops generalizing sites dynSeen with
  | nil => exact good
  | cons o rest ih =>
      rw [prepare]
      split
      next => exact good
      next =>
        exact ih (good.update o) _

/-- Preparing a phase touches the sites of its ops only. -/
theorem prepare_other {sites : Key Scalar → Option (Site Scalar)}
    {dynSeen : Key Scalar → Option (Op Scalar)} {ops : List (Op Scalar)} {key : Key Scalar}
    (other : ∀ o ∈ ops, siteKey o n mc ≠ key) :
    (prepare feq n mc sites dynSeen ops).1 key = sites key := by
  induction ops generalizing sites dynSeen with
  | nil => rfl
  | cons o rest ih =>
      rw [prepare]
      split
      next => rfl
      next =>
        have away : key ≠ siteKey o n mc := (other o List.mem_cons_self).symm
        exact (ih fun o' member => other o' (List.mem_cons_of_mem o member)).trans
          (Function.update_of_ne away _ _)

omit [DecidableEq Scalar] in
/-- Ops that share a site have the same params, where the dynamic ones agree. -/
theorem params_of_siteKey {ops : List (Op Scalar)} (agree : Agree n mc ops) {o o' : Op Scalar}
    (member : o ∈ ops) (member' : o' ∈ ops) (same : siteKey o n mc = siteKey o' n mc) :
    (describe o n mc).params = (describe o' n mc).params := by
  obtain ⟨-, -, params⟩ := Key.mk.inj same
  by_cases dyn : o.dyn = true <;> by_cases dyn' : o'.dyn = true
  · exact agree o member o' member' dyn dyn' same
  · simp [dyn, dyn'] at params
  · simp [dyn, dyn'] at params
  · simpa [dyn, dyn'] using params

/-- After pass 1 every op finds its own params in its site. -/
theorem prepare_spec {sites sites' : Key Scalar → Option (Site Scalar)}
    {dynSeen : Key Scalar → Option (Op Scalar)} {ops : List (Op Scalar)}
    {recs : List (Rec Scalar)} (good : AllGood n mc sites) (agree : Agree n mc ops)
    (done : prepare feq n mc sites dynSeen ops = (sites', some recs)) :
    recs = ops.map (fun o => ⟨(describe o n mc).kernel, siteKey o n mc, (describe o n mc).groups⟩) ∧
      ∀ o ∈ ops, ∃ site, sites' (siteKey o n mc) = some site ∧
        site.block = padded (describe o n mc).params := by
  induction ops generalizing sites dynSeen recs with
  | nil =>
      obtain rfl := Option.some.inj (Prod.mk.inj done).2
      exact ⟨rfl, fun o member => absurd member List.not_mem_nil⟩
  | cons o rest ih =>
      have agree' : Agree n mc rest := fun o' member o'' member' =>
        agree o' (List.mem_cons_of_mem o member) o'' (List.mem_cons_of_mem o member')
      rw [prepare] at done
      split at done
      next => cases (Prod.mk.inj done).2
      next accepted =>
        obtain ⟨sites_eq, recs_eq⟩ := Prod.mk.inj done
        obtain ⟨recs', rest_eq, rfl⟩ := Option.map_eq_some_iff.mp recs_eq
        obtain ⟨rest_recs, rest_sites⟩ := ih (good.update o) agree'
          (Prod.ext sites_eq rest_eq)
        refine ⟨by rw [rest_recs, List.map_cons], fun o' member => ?_⟩
        by_cases later : ∃ o'' ∈ rest, siteKey o'' n mc = siteKey o' n mc
        · -- the last op of the site wrote it
          obtain ⟨o'', member', same⟩ := later
          rw [← same, ← params_of_siteKey agree (List.mem_cons_of_mem o member') member same]
          exact rest_sites o'' member'
        · have alone : ∀ o'' ∈ rest, siteKey o'' n mc ≠ siteKey o' n mc :=
            fun o'' member' same => later ⟨o'', member', same⟩
          rcases List.mem_cons.mp member with rfl | member
          · rw [← sites_eq]
            exact ⟨_, (prepare_other alone).trans (Function.update_self _ _ _),
              (Site.written_spec o' good).2⟩
          · exact absurd rfl (alone o' member)

end Sites

/-! ## The two backends together -/

section Backends

variable [DecidableEq Scalar] [Zero Scalar] (feq : Scalar → Scalar → Bool)
  (kernels : Kernels Scalar)

/-- The GPU backend once its submit is waited out is the CPU one, and its sites are good. -/
structure Matches (rd : VecRd Scalar) (cpu : VecCpu Scalar) : Prop where
  n : rd.n = cpu.n
  mc : rd.mc = cpu.mc
  words : rd.words = cpu.words
  sites : AllGood rd.n rd.mc rd.sites
  bufs : (rd.sync kernels).bufs = cpu.bufs

/-- What a run of both backends asks of a call: the GPU backend accepts a phase, and the
dynamic ops of a phase that share a kernel and its buffers have the same params. -/
def Admitted (rd : VecRd Scalar) : Call Scalar → Prop
  | .run ops => (rd.step feq kernels (.run ops)).2 = .ok ∧ Agree rd.n rd.mc ops
  | .setup .. | .upload .. | .read .. => True

omit [DecidableEq Scalar] in
variable {kernels} in
/-- Waiting out the submit changes the buffers only. -/
theorem VecRd.sync_eq (rd : VecRd Scalar) :
    rd.sync kernels = { rd with bufs := (rd.sync kernels).bufs, inFlight := none } := by
  obtain ⟨n, mc, words, bufs, sites, inFlight⟩ := rd
  cases inFlight <;> rfl

variable {feq kernels} {rd : VecRd Scalar} {cpu : VecCpu Scalar}

omit [DecidableEq Scalar] in
/-- A backend with nothing in flight matches when its buffers do. -/
theorem Matches.settled (matched : Matches kernels rd cpu) (bufs bufs' : Buffers Scalar)
    (same : bufs = bufs') :
    Matches kernels { rd.sync kernels with bufs := bufs } { cpu with bufs := bufs' } := by
  obtain ⟨n, mc, words, sites, -⟩ := matched
  rw [VecRd.sync_eq]
  exact ⟨n, mc, words, sites, same⟩

omit [DecidableEq Scalar] in
/-- A recorded dispatch whose site holds the op's params does what the CPU does. -/
theorem execRec_eq (matched : Matches kernels rd cpu) (ready : rd.n ≠ 0)
    {sites : Key Scalar → Option (Site Scalar)} (good : AllGood rd.n rd.mc sites)
    {o : Op Scalar} {site : Site Scalar} (found : sites (siteKey o rd.n rd.mc) = some site)
    (block : site.block = padded (describe o rd.n rd.mc).params) (bufs : Buffers Scalar) :
    execRec kernels sites bufs ⟨(describe o rd.n rd.mc).kernel, siteKey o rd.n rd.mc,
        (describe o rd.n rd.mc).groups⟩ = cpu.exec kernels bufs o := by
  have launch := cpuDispatch_groups_eq_zero o rd.mc ready
  rw [VecCpu.exec, ← matched.n, ← matched.mc, execRec]
  simp only [launch, found]
  split
  · rfl
  · rw [block, (good _ site found).binds o rfl, cpuDispatch_eq o rd.n rd.mc, padded,
      execute_append_zeros]

/-- One call keeps the backends matched and answers alike. -/
theorem matches_step (matched : Matches kernels rd cpu) {call : Call Scalar}
    (admitted : Admitted feq kernels rd call) :
    Matches kernels (rd.step feq kernels call).1 (cpu.step kernels call).1 ∧
      (rd.step feq kernels call).2 = (cpu.step kernels call).2 := by
  cases call with
  | setup n mcap =>
      rw [VecRd.step, VecCpu.step]
      split
      · exact ⟨matched, rfl⟩
      · exact ⟨⟨rfl, rfl, rfl, fun _ _ found => absurd found (Option.some_ne_none _).symm, rfl⟩, rfl⟩
  | upload b data off =>
      rw [VecRd.step, VecCpu.step, matched.words]
      split
      · exact ⟨matched, rfl⟩
      · refine ⟨matched.settled _ _ ?_, rfl⟩
        rw [matched.bufs]
  | read b words off =>
      rw [VecRd.step, VecCpu.step, matched.words]
      split
      · exact ⟨matched, rfl⟩
      · exact ⟨matched.settled _ _ matched.bufs,
          congrArg (fun bufs : Buffers Scalar => Answer.data (slice words off (bufs b))) matched.bufs⟩
  | run ops =>
      obtain ⟨accepted, agree⟩ := admitted
      rw [VecRd.step] at accepted ⊢
      rw [VecCpu.step]
      split at accepted
      next => cases accepted
      next ready =>
        rw [if_neg ready]
        rw [VecRd.sync_eq] at accepted ⊢
        cases prepared : prepare feq rd.n rd.mc rd.sites (fun _ => none) ops with
        | mk sites recs =>
          have good : AllGood rd.n rd.mc sites := by
            have kept : AllGood rd.n rd.mc
                (prepare feq rd.n rd.mc rd.sites (fun _ => none) ops).1 :=
              prepare_good matched.sites (fun _ => none) ops
            rwa [prepared] at kept
          cases recs with
          | none =>
              simp only [prepared] at accepted
              cases accepted
          | some recs =>
              obtain ⟨rfl, own⟩ := prepare_spec matched.sites agree prepared
              simp only [prepared]
              refine ⟨⟨matched.n, matched.mc, matched.words, good, ?_⟩, trivial⟩
              change (ops.map _).foldl (execRec kernels sites) (rd.sync kernels).bufs = _
              rw [List.foldl_map, matched.bufs]
              refine List.foldl_ext _ _ _ fun bufs o member => ?_
              obtain ⟨site, found, block⟩ := own o member
              exact execRec_eq matched ready good found block bufs

omit [DecidableEq Scalar] in
/-- The backends match before their first setup. -/
theorem matches_empty : Matches kernels VecRd.empty VecCpu.empty where
  n := rfl
  mc := rfl
  words := rfl
  sites := fun _ _ found => absurd found (Option.some_ne_none _).symm
  bufs := rfl

variable (feq kernels) in
/-- Over every run of calls both backends accept, in which the dynamic ops of a phase that
share a kernel and its buffers have the same params, the backends answer alike. -/
theorem backends_agree {calls : List (Call Scalar)}
    (admitted : Runs.Along (fun rd call => (VecRd.step feq kernels rd call).1)
      (Admitted feq kernels) VecRd.empty calls) :
    Lockstep.trace (VecRd.step feq kernels) VecRd.empty calls =
      Lockstep.trace (VecCpu.step kernels) VecCpu.empty calls := by
  have kept : ∀ rd cpu call, Matches kernels rd cpu → Admitted feq kernels rd call →
      Matches kernels (VecRd.step feq kernels rd call).1 (VecCpu.step kernels cpu call).1 ∧
        (VecRd.step feq kernels rd call).2 = (VecCpu.step kernels cpu call).2 :=
    fun _ _ _ matched here => matches_step matched here
  exact Lockstep.trace_eq_of_along (Matches kernels) kept matches_empty admitted

instance (ops : List (Op Scalar)) (n mc : ℕ) : Decidable (Agree n mc ops) :=
  inferInstanceAs (Decidable (∀ o ∈ ops, ∀ o' ∈ ops, o.dyn = true → o'.dyn = true →
    siteKey o n mc = siteKey o' n mc → (describe o n mc).params = (describe o' n mc).params))

instance (call : Call Scalar) (rd : VecRd Scalar) : Decidable (Admitted feq kernels rd call) :=
  match call with
  | .run ops => inferInstanceAs
      (Decidable ((rd.step feq kernels (.run ops)).2 = .ok ∧ Agree rd.n rd.mc ops))
  | .setup .. | .upload .. | .read .. => isTrue trivial

end Backends

/-! ## A phase that shares a site -/

section Exact

/-- An integer word of a params block. -/
def uint : Param ℤ → ℕ
  | .inl n => n
  | .inr _ => 0

/-- A float word of a params block. -/
def float : Param ℤ → ℤ
  | .inl _ => 0
  | .inr f => f

/-- `lb_pg_inf` and `saxpby` in exact arithmetic; the other kernels are not run here. -/
def exactKernels : Kernels ℤ := fun kernel params bufs name =>
  match kernel, name with
  | .lbPgInf, .dst =>
      Function.update (bufs .dst) (uint (params 1)) (((List.range (uint (params 0))).map fun i =>
        |min (max (bufs .x i - bufs .g i) (bufs .lb i)) (bufs .ub i) - bufs .x i|).foldl max 0)
  | .saxpby, .dst => fun i =>
      if i < uint (params 0) then float (params 1) * bufs .x i + float (params 2) * bufs .y i
      else bufs .dst i
  | _, _ => bufs name

/-- A dynamic site rewritten between two phases. -/
theorem backends_agree_rewritten :
    let calls : List (Call ℤ) := [.setup 2 1, .upload .X [5, 7] 0, .upload .G [1, 2] 0,
      .run [saxpby .D .X .G 2 1 true, copy .SV .D], .run [saxpby .D .X .G 3 1 true],
      .read .D 2 0, .read .SV 2 0]
    Lockstep.trace (VecRd.step (fun a b => a == b) exactKernels) VecRd.empty calls =
        Lockstep.trace (VecCpu.step exactKernels) VecCpu.empty calls ∧
      Answer.data [16, 23] ∈ Lockstep.trace (VecCpu.step exactKernels) VecCpu.empty calls :=
  ⟨backends_agree (fun a b => a == b) exactKernels (by decide +kernel), by decide +kernel⟩

/-- Two dynamic projected gradients with the same coefficients and different slots share a
site: both write the second slot, and the first is read as it was. -/
theorem dynamic_site_shared :
    let into : ℕ → Op ℤ := fun slot => { pgInf .X .G slot with dyn := true }
    let calls : List (Call ℤ) := [.setup 1 1, .upload .LB [-10] 0, .upload .UB [10] 0,
      .upload .G [3] 0, .run [into 6, into 7], .read .SC 2 6]
    Answer.refused ∉ Lockstep.trace (VecRd.step (fun a b => a == b) exactKernels) VecRd.empty calls ∧
      Answer.refused ∉ Lockstep.trace (VecCpu.step exactKernels) VecCpu.empty calls ∧
      Lockstep.trace (VecRd.step (fun a b => a == b) exactKernels) VecRd.empty calls ≠
        Lockstep.trace (VecCpu.step exactKernels) VecCpu.empty calls := by
  decide +kernel

end Exact

end DressOn.Lbfgsb.Vec
