import DressOn.Ggml.CachedSets

/-!
# What every path through the caches keeps

A creation on the device fails, or puts its object behind a handle that was not out. The paths that
create and the ones that free keep the caches coherent, whether the device fails or not.
-/

namespace DressOn.Ggml.UniformSets

open Handles Server

variable {server after : Server Rid Object} {rid shader : Rid}

/-- A creation fails and leaves the server as it is, or puts its object behind a handle that was
not out. -/
inductive Created (object : Object) (before : Server Rid Object) : Rid → Server Rid Object → Prop
  | refused : Created object before 0 before
  | made {rid : Rid} (negative : rid < 0) (unused : before.held rid = none) :
      Created object before rid (before.create rid object)

namespace Created

variable {object : Object} {handles : List Rid}

/-- A creation that returns a handle has made the object. -/
theorem of_ne_zero (created : Created object server rid after) (some_rid : rid ≠ 0) :
    rid < 0 ∧ server.held rid = none ∧ after = server.create rid object := by
  cases created with
  | refused => exact absurd rfl some_rid
  | made negative unused => exact ⟨negative, unused, rfl⟩

/-- A creation that returns null has left the server as it is. -/
theorem of_zero (created : Created object server 0 after) : after = server := by
  generalize null : (0 : Rid) = rid at created
  cases created with
  | refused => rfl
  | made negative => exact absurd (null ▸ negative) (Int.lt_irrefl 0)

end Created

namespace Gpu

variable {gpu : Gpu}

/-- `create` is refused, or makes its object. -/
theorem create_created (step : String) (object : Object) (gpu : Gpu) :
    Created object gpu.server (gpu.create step object).1 (gpu.create step object).2.server := by
  unfold create
  split
  next =>
    split
    next usable => exact .made usable.1 usable.2
    next => exact .refused
  next => exact .refused

/-- The number that is found is that of a buffer. -/
theorem buffer?_eq_some {rid : Rid} {number : ℕ} (found : gpu.buffer? rid = some number) :
    IsBuffer gpu.server rid ∧ gpu.server.held rid = some number := by
  unfold buffer? at found
  split at found
  next there => exact ⟨⟨_, _, there⟩, found⟩
  next => cases found

/-- The number that is found is that of a shader. -/
theorem shader?_eq_some {rid : Rid} {number : ℕ} (found : gpu.shader? rid = some number) :
    gpu.server.at? rid = some .shader ∧ gpu.server.held rid = some number := by
  unfold shader? at found
  split at found
  next there => exact ⟨there, found⟩
  next => cases found

/-- The numbers of a set's bindings are those behind their handles. -/
theorem resolve_eq_some {bindings : List (ℕ × Rid)} {numbers : List (ℕ × ℕ)}
    (found : gpu.resolve bindings = some numbers) :
    List.Forall₂ (fun binding entry => binding.1 = entry.1 ∧
      gpu.server.held binding.2 = some entry.2) bindings numbers := by
  induction bindings generalizing numbers with
  | nil =>
    obtain rfl : [] = numbers := Option.some.inj found
    exact .nil
  | cons binding rest inductionHypothesis =>
    unfold resolve at found
    split at found
    next number others holds resolved =>
      obtain rfl := Option.some.inj found
      exact .cons ⟨rfl, (buffer?_eq_some holds).2⟩ (inductionHypothesis resolved)
    next => cases found

/-- A pipeline is refused, or made of the shader behind the handle. -/
theorem computePipeline_created (shader : Rid) (gpu : Gpu) :
    ((gpu.computePipeline shader).1 = 0 ∧
        (gpu.computePipeline shader).2.server = gpu.server) ∨
      ∃ number, gpu.server.held shader = some number ∧
        Created (.pipeline number) gpu.server (gpu.computePipeline shader).1
          (gpu.computePipeline shader).2.server := by
  unfold computePipeline
  split
  next number against =>
    exact .inr ⟨number, (shader?_eq_some against).2, create_created _ _ gpu⟩
  next => exact .inl ⟨rfl, rfl⟩

/-- A set is refused, or made of a shader and the buffers behind the handles. -/
theorem uniformSet_created (shader : Rid) (bindings : List (ℕ × Rid)) (gpu : Gpu) :
    ((gpu.uniformSet shader bindings).1 = 0 ∧
        (gpu.uniformSet shader bindings).2.server = gpu.server) ∨
      ∃ number numbers, gpu.server.held shader = some number ∧
        List.Forall₂ (fun binding entry => binding.1 = entry.1 ∧
          gpu.server.held binding.2 = some entry.2) bindings numbers ∧
        Created (.set number numbers) gpu.server (gpu.uniformSet shader bindings).1
          (gpu.uniformSet shader bindings).2.server := by
  unfold uniformSet
  split
  next number numbers against resolved =>
    exact .inr ⟨number, numbers, (shader?_eq_some against).2, resolve_eq_some resolved,
      create_created _ _ gpu⟩
  next => exact .inl ⟨rfl, rfl⟩

/-- A clear makes and frees nothing. -/
theorem bufferClear_server (gpu : Gpu) : gpu.bufferClear.2.server = gpu.server := by
  unfold bufferClear
  split <;> rfl

/-- A handle of an object is released. -/
theorem freeRid_server {rid : Rid} (negative : rid < 0) :
    (gpu.freeRid rid).server = gpu.server.release Object.deps rid := by
  rw [freeRid, if_neg (Int.ne_of_lt negative)]

/-- A cleared buffer is made, or nothing is lost. -/
theorem storageBufferEmpty_spec {handles : List Rid} (bytes : ℕ) (gpu : Gpu)
    (ledger : Ledger Object.deps gpu.server handles) :
    ((gpu.storageBufferEmpty bytes).1 = 0 ∧
        Ledger Object.deps (gpu.storageBufferEmpty bytes).2.server handles ∧
        Keeps (fun _ => False) gpu.server (gpu.storageBufferEmpty bytes).2.server) ∨
      ((gpu.storageBufferEmpty bytes).1 < 0 ∧
        gpu.server.held (gpu.storageBufferEmpty bytes).1 = none ∧
        (gpu.storageBufferEmpty bytes).2.server =
          gpu.server.create (gpu.storageBufferEmpty bytes).1 (.buffer bytes [])) := by
  have created := create_created "storage_buffer_create" (.buffer bytes []) gpu
  unfold storageBufferEmpty
  generalize gpu.create "storage_buffer_create" (.buffer bytes []) = result at created ⊢
  obtain ⟨rid, made⟩ := result
  dsimp only at created ⊢
  split
  next null =>
    subst null
    rw [created.of_zero]
    exact .inl ⟨rfl, ledger, .refl _⟩
  next some_rid =>
    obtain ⟨negative, unused, same⟩ := created.of_ne_zero some_rid
    have cleared := bufferClear_server made
    generalize made.bufferClear = result at cleared ⊢
    obtain ⟨accepted, final⟩ := result
    dsimp only at cleared ⊢
    split
    · exact .inr ⟨negative, unused, cleared.trans same⟩
    · refine .inl ⟨rfl, ?_⟩
      rw [freeRid_server negative, cleared, same]
      exact ledger.create_release unused nofun

end Gpu

namespace World

variable {world : World}

/-- The caches of a world are coherent. -/
def Coherent (world : World) : Prop :=
  UniformSets.Coherent world.gpu.server world.cache world.buffers

/-- Counting a set leaves the buffers and the caches. -/
theorem createdOne_frame (world : World) : world.createdOne.buffers = world.buffers ∧
    world.createdOne.cache.params = world.cache.params ∧
    world.createdOne.cache.layoutShader = world.cache.layoutShader ∧
    world.createdOne.cache.slotSets = world.cache.slotSets ∧
    world.createdOne.cache.set0 = world.cache.set0 := by
  unfold createdOne
  split <;> exact ⟨rfl, rfl, rfl, rfl, rfl⟩

/-- Counting a set changes only the counter. -/
theorem Coherent.createdOne (coherent : world.Coherent) : world.createdOne.Coherent := by
  have recounted (count : ℕ) (stats : Stats) : World.Coherent { world with
      cache := { world.cache with createdSinceCoop := count }, stats } :=
    ⟨coherent.ledger, coherent.negative, ⟨coherent.named.kerns, coherent.named.layout,
      coherent.named.params, coherent.named.tensors, coherent.named.slots,
      coherent.named.slotSets, coherent.named.set0⟩⟩
  unfold World.createdOne
  split
  · exact recounted _ _
  · exact recounted _ _

/-- A kernel's pipeline and shader join the handles of the caches. -/
theorem owned_add_kern (cache : State) (buffers : List Rid) (k : ℕ) (kern : Kern) (layout : Rid) :
    (kern.pipeline :: kern.shader :: (cache.owned ++ buffers)).Perm
      (State.owned { cache with kerns := (k, kern) :: cache.kerns, layoutShader := layout } ++
        buffers) := by
  refine List.perm_iff_count.mpr fun rid => ?_
  simp only [State.owned, List.flatMap_cons, List.count_append, List.count_cons, List.count_nil]
  omega

/-- A kernel's pipeline is found in its cache, or made and put there. -/
theorem kernelPipeline_coherent (table : Table) (k : ℕ) (coherent : world.Coherent) :
    (world.kernelPipeline table k).2.Coherent ∧
      (world.kernelPipeline table k).2.buffers = world.buffers := by
  unfold kernelPipeline
  split
  · exact ⟨coherent, rfl⟩
  split
  · exact ⟨coherent, rfl⟩
  split
  swap
  · exact ⟨coherent, rfl⟩
  have shaders := Gpu.create_created "shader_create_from_spirv" .shader world.gpu
  unfold Gpu.shaderFromSpirv
  generalize world.gpu.create "shader_create_from_spirv" .shader = result at shaders ⊢
  obtain ⟨shader, made⟩ := result
  dsimp only at shaders ⊢
  split
  next null =>
    subst null
    refine ⟨?_, rfl⟩
    change UniformSets.Coherent made.server world.cache world.buffers
    rw [shaders.of_zero]
    exact coherent
  next some_shader =>
  obtain ⟨negative, unused, same⟩ := shaders.of_ne_zero some_shader
  have alone : ∀ number ∈ Object.deps .shader, number < world.gpu.server.next := nofun
  have pipelines := Gpu.computePipeline_created shader made
  generalize made.computePipeline shader = result at pipelines ⊢
  obtain ⟨pipeline, final⟩ := result
  dsimp only at pipelines ⊢
  split
  next null =>
    have refused : final.server = made.server := by
      rcases pipelines with ⟨-, refused⟩ | ⟨number, -, created⟩
      · exact refused
      · exact (null ▸ created).of_zero
    refine ⟨?_, rfl⟩
    change UniformSets.Coherent (final.freeRid shader).server world.cache world.buffers
    rw [Gpu.freeRid_server negative, refused, same]
    obtain ⟨ledger, keeps⟩ := coherent.ledger.create_release unused alone
    exact ⟨ledger, coherent.negative, coherent.named.keeps keeps⟩
  next some_pipeline =>
    obtain ⟨number, holds, created⟩ := pipelines.resolve_left fun refused => some_pipeline refused.1
    obtain ⟨negative', unused', same'⟩ := created.of_ne_zero some_pipeline
    rw [same] at holds unused' same'
    have ledger := coherent.ledger.create unused alone
    have known : ∀ needed ∈ Object.deps (.pipeline number),
        needed < (world.gpu.server.create shader .shader).next := by
      simpa [Object.deps] using ledger.sound.held_lt _ _ holds
    have keeps : Keeps (fun _ => False) world.gpu.server final.server :=
      ((Keeps.create coherent.ledger.sound unused).trans
        (same' ▸ Keeps.create ledger.sound unused')).mono fun _ gone => gone.elim id id
    have perm := owned_add_kern world.cache world.buffers k ⟨shader, pipeline⟩
      (if world.cache.layoutShader = 0 then shader else world.cache.layoutShader)
    have last : Keeps (fun _ => False) (world.gpu.server.create shader .shader) final.server :=
      same' ▸ Keeps.create ledger.sound unused'
    refine ⟨⟨?_, fun rid member => ?_, ?_⟩, rfl⟩
    · exact same' ▸ (ledger.create unused' known).perm perm
    · rcases List.mem_cons.mp (perm.mem_iff.mpr member) with rfl | member
      · exact negative'
      rcases List.mem_cons.mp member with rfl | member
      · exact negative
      · exact coherent.negative rid member
    · exact (coherent.named.keeps keeps).add_kern k
        (held_keeps last at?_create_self holds id)
        (last.at? id at?_create_self) (same' ▸ at?_create_self)

/-- The handles of sets that go with a buffer are taken back. -/
theorem forgetSets_server (sets : List (Key × Rid)) (gpu : Gpu)
    (negative : ∀ entry ∈ sets, entry.2 < 0) :
    (forgetSets sets gpu).server = (sets.map Prod.snd).foldl forget gpu.server := by
  induction sets generalizing gpu with
  | nil => rfl
  | cons entry rest inductionHypothesis =>
    have first : ¬ 0 ≤ entry.2 := Int.not_le.mpr (negative entry List.mem_cons_self)
    have others := inductionHypothesis (gpu.forget entry.2)
      fun other member => negative other (List.mem_cons_of_mem _ member)
    rw [List.map_cons, List.foldl_cons, ← show (gpu.forget entry.2).server = gpu.server.forget
      entry.2 by rw [Gpu.forget, if_neg first]]
    exact others

/-- The params buffer is freed, and the sets over it go with it. -/
theorem dropParams_coherent (coherent : world.Coherent) :
    world.dropParams.Coherent ∧ world.dropParams.buffers = world.buffers ∧
      world.dropParams.cache.params = 0 := by
  unfold dropParams
  split
  next null => exact ⟨coherent, rfl, null⟩
  next some_params =>
  have named := coherent.named
  have perm : (world.cache.owned ++ world.buffers).Perm (world.cache.params ::
      (world.cache.set0.map Prod.snd ++ (State.owned { world.cache with
        set0 := [], params := 0, paramsSlots := 0 } ++ world.buffers))) := by
    refine List.perm_iff_count.mpr fun rid => ?_
    simp only [State.owned, if_neg some_params, List.map_nil, List.nil_append, List.count_append,
      List.count_cons, List.count_nil, if_true]
    omega
  have ledger := coherent.ledger.perm perm
  have apart := (List.nodup_append.mp (List.nodup_cons.mp ledger.distinct).2).2.2
  have goes : ∀ other ∈ world.cache.set0.map Prod.snd,
      world.gpu.server.Depends Object.deps other world.cache.params := by
    intro other member
    obtain ⟨entry, cached, rfl⟩ := List.mem_map.mp member
    obtain ⟨-, -, same, -, binds⟩ := named.set0 entry cached
    have head : (0, entry.1.params) ∈ entry.1.bindings := List.mem_cons_self
    exact same ▸ binds.depends head
  have stays : ∀ other ∈ State.owned { world.cache with
        set0 := [], params := 0, paramsSlots := 0 } ++ world.buffers,
      ¬ world.gpu.server.Depends Object.deps other world.cache.params := by
    intro other member depends
    rcases coherent.needs_buffer (named.params some_params) depends with
      ⟨entry, cached, rfl, -⟩ | ubo
    · exact apart _ (List.mem_map_of_mem cached) _ member rfl
    · exact coherent.params_not_ubo some_params ubo
  have negative : ∀ rid ∈ world.cache.params :: (world.cache.set0.map Prod.snd ++
      (State.owned { world.cache with set0 := [], params := 0, paramsSlots := 0 } ++
        world.buffers)), rid < 0 :=
    fun rid member => coherent.negative rid (perm.mem_iff.mpr member)
  obtain ⟨after, keeps⟩ := ledger.retire goes stays
  have same : ((forgetSets world.cache.set0 world.gpu).freeRid world.cache.params).server =
      ((world.cache.set0.map Prod.snd).foldl forget world.gpu.server).release Object.deps
        world.cache.params := by
    rw [Gpu.freeRid_server (negative _ List.mem_cons_self), forgetSets_server]
    intro entry member
    exact negative _ (List.mem_cons_of_mem _ (List.mem_append_left _ (List.mem_map_of_mem member)))
  refine ⟨⟨?_, ?_, ?_⟩, rfl, rfl⟩
  · exact same ▸ after
  · exact fun rid member => negative rid (List.mem_cons_of_mem _ (List.mem_append_right _ member))
  · refine same ▸ named.shrink keeps (List.forall_mem_nil _) (fun _ => id)
      (fun some => absurd rfl some) ?_
    rintro rid member (rfl | set)
    · exact (List.nodup_cons.mp ledger.distinct).1 (List.mem_append_right _ member)
    · exact apart rid set rid member rfl

/-- The params buffer is large enough, or made anew. -/
theorem paramsBuffer_coherent (slots : ℕ) (coherent : world.Coherent) :
    (world.paramsBuffer slots).2.Coherent ∧ (world.paramsBuffer slots).2.buffers = world.buffers ∧
      ((world.paramsBuffer slots).1 ≠ 0 →
        (world.paramsBuffer slots).2.cache.params = (world.paramsBuffer slots).1) := by
  unfold paramsBuffer
  split
  · exact ⟨coherent, rfl, fun _ => rfl⟩
  obtain ⟨dropped, buffers, null⟩ := dropParams_coherent coherent
  rw [← buffers]
  generalize world.dropParams = world at dropped null ⊢
  have made := Gpu.storageBufferEmpty_spec (capacity 8192 slots * kSlotBytes) world.gpu
    dropped.ledger
  dsimp only
  generalize world.gpu.storageBufferEmpty (capacity 8192 slots * kSlotBytes) = result at made ⊢
  obtain ⟨params, gpu⟩ := result
  dsimp only at made ⊢
  rcases made with ⟨rfl, ledger, keeps⟩ | ⟨negative, unused, same⟩
  · rw [if_pos rfl]
    exact ⟨⟨ledger, dropped.negative, dropped.named.keeps keeps⟩, rfl, fun some => absurd rfl some⟩
  · rw [if_neg (Int.ne_of_lt negative)]
    have perm : (params :: (world.cache.owned ++ world.buffers)).Perm (State.owned { world.cache with
        params, paramsSlots := capacity 8192 slots } ++ world.buffers) := by
      refine List.perm_iff_count.mpr fun rid => ?_
      simp only [State.owned, null, if_true, if_neg (Int.ne_of_lt negative), List.count_append,
        List.count_cons, List.count_nil]
      omega
    refine ⟨⟨?_, fun rid member => ?_, ?_⟩, rfl, fun _ => rfl⟩
    · exact same ▸ (dropped.ledger.create unused (buffer_known _ [] _)).perm perm
    · rcases List.mem_cons.mp (perm.mem_iff.mpr member) with rfl | member
      · exact negative
      · exact dropped.negative rid member
    · exact same ▸ (dropped.named.keeps (.create dropped.ledger.sound unused)).add_params null
        ⟨_, _, at?_create_self⟩ _

/-- A tensor buffer is made. -/
theorem allocBuffer_coherent (table : Table) (size : ℕ) (coherent : world.Coherent) :
    (world.allocBuffer table size).Coherent := by
  unfold allocBuffer
  dsimp only
  split
  · exact coherent
  have made := Gpu.storageBufferEmpty_spec ((max size 1 + 255) / 256 * 256) world.gpu
    coherent.ledger
  generalize world.gpu.storageBufferEmpty ((max size 1 + 255) / 256 * 256) = result at made ⊢
  obtain ⟨buffer, gpu⟩ := result
  dsimp only at made ⊢
  rcases made with ⟨rfl, ledger, keeps⟩ | ⟨negative, unused, same⟩
  · rw [if_pos rfl]
    exact ⟨ledger, coherent.negative, coherent.named.keeps keeps⟩
  · rw [if_neg (Int.ne_of_lt negative)]
    refine ⟨?_, fun rid member => ?_, ?_⟩
    · exact same ▸
        (coherent.ledger.create unused (buffer_known _ [] _)).perm List.perm_middle.symm
    · rcases List.mem_cons.mp (List.perm_middle.mem_iff.mp member) with rfl | member
      · exact negative
      · exact coherent.negative rid member
    · exact same ▸ (coherent.named.keeps (.create coherent.ledger.sound unused)).add_buffer
        ⟨_, _, at?_create_self⟩

/-- What a turn of slots or of sets of tensors leaves alone. -/
structure SameBuffers (before after : World) : Prop where
  buffers : after.buffers = before.buffers
  params : after.cache.params = before.cache.params
  layout : after.cache.layoutShader = before.cache.layoutShader

/-- A set is made of buffers that are behind their handles. -/
theorem tensorSet_coherent {key : Key} (coherent : world.Coherent)
    (some_params : world.cache.params ≠ 0) (params : key.params = world.cache.params)
    (tensors : ∀ buffer ∈ [key.s0, key.s1, key.s2, key.dst], buffer ∈ world.buffers) :
    (world.tensorSet key).2.Coherent ∧ SameBuffers world (world.tensorSet key).2 ∧
      (world.tensorSet key).2.cache.slotSets = world.cache.slotSets ∧
      (∀ entry ∈ world.cache.set0, entry ∈ (world.tensorSet key).2.cache.set0) ∧
      ((world.tensorSet key).1 ≠ 0 →
        (key, (world.tensorSet key).1) ∈ (world.tensorSet key).2.cache.set0) := by
  unfold tensorSet
  split
  next set found =>
    obtain ⟨before, behind, split, -⟩ := List.lookup_eq_some_iff.mp found
    have member : (key, set) ∈ world.cache.set0 := by simp [split]
    exact ⟨coherent, ⟨rfl, rfl, rfl⟩, rfl, fun _ => id, fun _ => member⟩
  split
  · exact ⟨coherent, ⟨rfl, rfl, rfl⟩, rfl, fun _ => id, fun some => absurd rfl some⟩
  next some_layout =>
  have made := Gpu.uniformSet_created world.cache.layoutShader key.bindings world.gpu
  generalize world.gpu.uniformSet world.cache.layoutShader key.bindings = result at made ⊢
  obtain ⟨set, gpu⟩ := result
  dsimp only at made ⊢
  split
  next null =>
    have refused : gpu.server = world.gpu.server := by
      rcases made with ⟨-, refused⟩ | ⟨_, _, -, -, created⟩
      · exact refused
      · exact (null ▸ created).of_zero
    refine ⟨?_, ⟨rfl, rfl, rfl⟩, rfl, fun _ => id, fun some => absurd rfl some⟩
    change UniformSets.Coherent gpu.server world.cache world.buffers
    exact refused ▸ coherent
  next some_set =>
    obtain ⟨number, numbers, holds, entries, created⟩ :=
      made.resolve_left fun refused => some_set refused.1
    obtain ⟨negative, unused, same⟩ := created.of_ne_zero some_set
    have ledger := coherent.ledger.create unused (set_known coherent.sound holds entries)
    have joined : World.Coherent { world with
        gpu, cache := { world.cache with set0 := (key, set) :: world.cache.set0 }
        stats := { world.stats with set0Created := world.stats.set0Created + 1 } } := by
      refine ⟨same ▸ ledger, List.forall_mem_cons.mpr ⟨negative, coherent.negative⟩, ?_⟩
      exact same ▸ (coherent.named.keeps (.create coherent.sound unused)).add_tensors some_layout
        some_params params tensors (Binds.of_create holds entries unused)
    obtain ⟨buffers, params_same, layout, slotSets, set0⟩ := createdOne_frame { world with
      gpu, cache := { world.cache with set0 := (key, set) :: world.cache.set0 }
      stats := { world.stats with set0Created := world.stats.set0Created + 1 } }
    refine ⟨joined.createdOne, ⟨buffers, params_same, layout⟩, slotSets, fun entry member => ?_,
      fun _ => ?_⟩
    · exact set0 ▸ List.mem_cons_of_mem _ member
    · exact set0 ▸ List.mem_cons_self

/-- A slot's set is made of the buffer that holds its base. -/
theorem addSlot_coherent (coherent : world.Coherent) (some_layout : world.cache.layoutShader ≠ 0) :
    world.addSlot.2.Coherent ∧ SameBuffers world world.addSlot.2 ∧
      world.addSlot.2.cache.slotSets.length =
        world.cache.slotSets.length + world.addSlot.1.toNat := by
  have ubos := Gpu.create_created "uniform_buffer_create"
    (.buffer 16 [world.cache.slotSets.length * kWordsPerSlot, 0, 0, 0]) world.gpu
  unfold addSlot Gpu.uniformBuffer
  dsimp only
  generalize world.gpu.create "uniform_buffer_create"
    (.buffer 16 [world.cache.slotSets.length * kWordsPerSlot, 0, 0, 0]) = result at ubos ⊢
  obtain ⟨ubo, made⟩ := result
  dsimp only at ubos ⊢
  split
  next null =>
    refine ⟨?_, ⟨rfl, rfl, rfl⟩, rfl⟩
    change UniformSets.Coherent made.server world.cache world.buffers
    subst null
    rw [ubos.of_zero]
    exact coherent
  next some_ubo =>
  obtain ⟨negative, unused, same⟩ := ubos.of_ne_zero some_ubo
  have sets := Gpu.uniformSet_created world.cache.layoutShader (slotBindings ubo) made
  generalize made.uniformSet world.cache.layoutShader (slotBindings ubo) = result at sets ⊢
  obtain ⟨set, final⟩ := result
  dsimp only at sets ⊢
  split
  next null =>
    have refused : final.server = made.server := by
      rcases sets with ⟨-, refused⟩ | ⟨_, _, -, -, created⟩
      · exact refused
      · exact (null ▸ created).of_zero
    refine ⟨?_, ⟨rfl, rfl, rfl⟩, rfl⟩
    change UniformSets.Coherent (final.freeRid ubo).server world.cache world.buffers
    rw [Gpu.freeRid_server negative, refused, same]
    obtain ⟨ledger, keeps⟩ := coherent.ledger.create_release unused (buffer_known 16 _ _)
    exact ⟨ledger, coherent.negative, coherent.named.keeps keeps⟩
  next some_set =>
    obtain ⟨number, numbers, holds, entries, created⟩ :=
      sets.resolve_left fun refused => some_set refused.1
    obtain ⟨negative', unused', same'⟩ := created.of_ne_zero some_set
    have ledger := coherent.ledger.create unused (buffer_known 16
      [world.cache.slotSets.length * kWordsPerSlot, 0, 0, 0] _)
    have first : Keeps (fun _ => False) world.gpu.server made.server :=
      same ▸ .create coherent.sound unused
    have base : made.server.at? ubo =
        some (.buffer 16 [world.cache.slotSets.length * kWordsPerSlot, 0, 0, 0]) :=
      same ▸ at?_create_self
    rw [← same] at ledger
    have both := ledger.create unused' (set_known ledger.sound holds entries)
    have last : Keeps (fun _ => False) made.server final.server :=
      same' ▸ .create ledger.sound unused'
    have perm : (set :: ubo :: (world.cache.owned ++ world.buffers)).Perm
        (State.owned { world.cache with
          slotUbos := world.cache.slotUbos ++ [ubo]
          slotSets := world.cache.slotSets ++ [set] } ++ world.buffers) := by
      refine List.perm_iff_count.mpr fun rid => ?_
      simp only [State.owned, List.count_append, List.count_cons, List.count_nil]
      omega
    have joined : World.Coherent { world with
        gpu := final
        cache := { world.cache with
          slotUbos := world.cache.slotUbos ++ [ubo]
          slotSets := world.cache.slotSets ++ [set] }
        stats := { world.stats with slotsCreated := world.stats.slotsCreated + 1 } } := by
      refine ⟨same' ▸ both.perm perm, fun rid member => ?_, ?_⟩
      · rcases List.mem_cons.mp (perm.mem_iff.mpr member) with rfl | member
        · exact negative'
        rcases List.mem_cons.mp member with rfl | member
        · exact negative
        · exact coherent.negative rid member
      · exact ((coherent.named.keeps first).keeps last).add_slot some_layout (last.at? id base)
          (same' ▸ Binds.of_create holds entries unused')
    obtain ⟨buffers, params, layout, slotSets, -⟩ := createdOne_frame { world with
      gpu := final
      cache := { world.cache with
        slotUbos := world.cache.slotUbos ++ [ubo]
        slotSets := world.cache.slotSets ++ [set] }
      stats := { world.stats with slotsCreated := world.stats.slotsCreated + 1 } }
    refine ⟨joined.createdOne, ⟨buffers, params, layout⟩, ?_⟩
    rw [slotSets, List.length_append, List.length_singleton]
    rfl

/-- Slot sets are added one after the other. -/
theorem growSlots_coherent (turns : ℕ) (coherent : world.Coherent)
    (some_layout : world.cache.layoutShader ≠ 0) :
    (growSlots turns world).2.Coherent ∧ SameBuffers world (growSlots turns world).2 ∧
      world.cache.slotSets.length ≤ (growSlots turns world).2.cache.slotSets.length ∧
      ((growSlots turns world).1 = true →
        (growSlots turns world).2.cache.slotSets.length = world.cache.slotSets.length + turns) := by
  induction turns generalizing world with
  | zero => exact ⟨coherent, ⟨rfl, rfl, rfl⟩, Nat.le_refl _, fun _ => rfl⟩
  | succ turns inductionHypothesis =>
    obtain ⟨joined, same, length⟩ := addSlot_coherent coherent some_layout
    unfold growSlots
    dsimp only
    split
    next made =>
      rw [made, Bool.toNat_true] at length
      obtain ⟨grown, rest, longer, all_length⟩ :=
        inductionHypothesis joined (same.layout ▸ some_layout)
      refine ⟨grown, ⟨rest.buffers.trans same.buffers, rest.params.trans same.params,
        rest.layout.trans same.layout⟩, by omega, fun all => ?_⟩
      have others := all_length all
      omega
    next unmade =>
      rw [Bool.eq_false_iff.mpr unmade, Bool.toNat_false] at length
      exact ⟨joined, same, Nat.le_of_eq length.symm, nofun⟩

/-- The sets of the slots grow up to the one that is asked for. -/
theorem slotSet_coherent (i : ℕ) (coherent : world.Coherent) :
    (world.slotSet i).2.Coherent ∧ SameBuffers world (world.slotSet i).2 ∧
      world.cache.slotSets.length ≤ (world.slotSet i).2.cache.slotSets.length ∧
      ((world.slotSet i).1 ≠ 0 → i < (world.slotSet i).2.cache.slotSets.length) := by
  unfold slotSet
  split
  · exact ⟨coherent, ⟨rfl, rfl, rfl⟩, Nat.le_refl _, fun some => absurd rfl some⟩
  next some_layout =>
  obtain ⟨grown, same, longer, length⟩ :=
    growSlots_coherent (i + 1 - world.cache.slotSets.length) coherent some_layout
  dsimp only
  split
  next all =>
    have length := length all
    exact ⟨grown, same, longer, fun _ => by dsimp only; omega⟩
  next => exact ⟨grown, same, longer, fun some => absurd rfl some⟩

/-- A tensor buffer is freed, and the sets that mention it go with it. -/
theorem bufferFree_coherent {buffer : Rid} (coherent : world.Coherent)
    (member : buffer ∈ world.buffers) : (world.bufferFree buffer).Coherent := by
  have named := coherent.named
  have is_buffer := named.tensors buffer member
  have not_owned : buffer ∉ world.cache.owned := fun owned => coherent.not_tensor owned member
  have split := (List.filter_append_perm (fun entry : Key × Rid => Mentions buffer entry.1)
    world.cache.set0).map Prod.snd
  have perm : (world.cache.owned ++ world.buffers).Perm (buffer ::
      ((world.cache.set0.filter fun entry => Mentions buffer entry.1).map Prod.snd ++
        (State.owned { world.cache with
          set0 := world.cache.set0.filter fun entry => ¬ Mentions buffer entry.1 } ++
            world.buffers.erase buffer))) := by
    refine List.perm_iff_count.mpr fun rid => ?_
    have sets := split.count_eq rid
    have tensors := (List.perm_cons_erase member).count_eq rid
    simp only [List.map_append, List.count_append, List.count_cons] at sets tensors
    simp only [State.owned, List.count_append, List.count_cons, tensors, ← sets, decide_not]
    omega
  have ledger := coherent.ledger.perm perm
  have apart := (List.nodup_append.mp (List.nodup_cons.mp ledger.distinct).2).2.2
  have goes : ∀ other ∈ (world.cache.set0.filter fun entry => Mentions buffer entry.1).map Prod.snd,
      world.gpu.server.Depends Object.deps other buffer := by
    intro other found
    obtain ⟨entry, mentioned, rfl⟩ := List.mem_map.mp found
    obtain ⟨cached, mentions⟩ := List.mem_filter.mp mentioned
    obtain ⟨-, -, -, -, binds⟩ := named.set0 entry cached
    have bound : ∃ slot, (slot, buffer) ∈ entry.1.bindings := by
      rcases of_decide_eq_true mentions with rfl | rfl | rfl | rfl
      exacts [⟨1, by simp [Key.bindings]⟩, ⟨2, by simp [Key.bindings]⟩,
        ⟨3, by simp [Key.bindings]⟩, ⟨4, by simp [Key.bindings]⟩]
    obtain ⟨slot, bound⟩ := bound
    exact binds.depends bound
  have stays : ∀ other ∈ State.owned { world.cache with
        set0 := world.cache.set0.filter fun entry => ¬ Mentions buffer entry.1 } ++
          world.buffers.erase buffer,
      ¬ world.gpu.server.Depends Object.deps other buffer := by
    intro other found depends
    rcases coherent.needs_buffer is_buffer depends with
      ⟨entry, cached, rfl, binding, bound, same⟩ | ubo
    · by_cases mentions : Mentions buffer entry.1
      · refine apart entry.2 (List.mem_map_of_mem (List.mem_filter.mpr ⟨cached, ?_⟩)) _ found rfl
        exact decide_eq_true mentions
      · -- a set that does not mention the buffer binds it nowhere: it is not the params table
        obtain ⟨-, some_params, params, -⟩ := named.set0 entry cached
        simp only [Mentions, not_or] at mentions
        obtain ⟨s0, s1, s2, dst⟩ := mentions
        simp only [Key.bindings, List.mem_cons, List.not_mem_nil, or_false] at bound
        rcases bound with rfl | rfl | rfl | rfl | rfl
        · refine not_owned (State.mem_owned.mpr (.inr (.inr (.inr (.inl ⟨some_params, ?_⟩)))))
          exact same.symm.trans params
        exacts [s0 same, s1 same, s2 same, dst same]
    · exact not_owned (State.mem_owned.mpr (.inr (.inr (.inl ubo))))
  have negative : ∀ rid ∈ buffer :: ((world.cache.set0.filter fun entry =>
      Mentions buffer entry.1).map Prod.snd ++ (State.owned { world.cache with
        set0 := world.cache.set0.filter fun entry => ¬ Mentions buffer entry.1 } ++
          world.buffers.erase buffer)), rid < 0 :=
    fun rid member => coherent.negative rid (perm.mem_iff.mpr member)
  obtain ⟨after, keeps⟩ := ledger.retire goes stays
  have same : (world.bufferFree buffer).gpu.server =
      (((world.cache.set0.filter fun entry => Mentions buffer entry.1).map Prod.snd).foldl forget
        world.gpu.server).release Object.deps buffer := by
    rw [← forgetSets_server _ world.gpu, ← Gpu.freeRid_server (negative _ List.mem_cons_self)]
    · rfl
    intro entry mentioned
    exact negative _ (List.mem_cons_of_mem _
      (List.mem_append_left _ (List.mem_map_of_mem mentioned)))
  refine ⟨same ▸ after,
    fun rid member => negative rid (List.mem_cons_of_mem _ (List.mem_append_right _ member)), ?_⟩
  refine same ▸ named.shrink keeps (fun entry left => ?_) (fun _ => List.mem_of_mem_erase)
    (fun _ => rfl) ?_
  · obtain ⟨cached, unmentioned⟩ := List.mem_filter.mp left
    obtain ⟨-, -, -, tensors, -⟩ := named.set0 entry cached
    refine ⟨cached, rfl, fun tensor bound => ?_⟩
    refine (List.mem_erase_of_ne ?_).mpr (tensors tensor bound)
    rintro rfl
    refine of_decide_eq_true unmentioned ?_
    simpa [Mentions, eq_comm] using bound
  · rintro rid member (rfl | set)
    · exact (List.nodup_cons.mp ledger.distinct).1 (List.mem_append_right _ member)
    · exact apart rid set rid member rfl

/-- The handles of objects are released one after the other. -/
theorem freeRids_server (rids : List Rid) (gpu : Gpu) (negative : ∀ rid ∈ rids, rid < 0) :
    (rids.foldl (fun gpu rid => gpu.freeRid rid) gpu).server =
      rids.foldl (Server.release Object.deps) gpu.server := by
  induction rids generalizing gpu with
  | nil => rfl
  | cons rid rest inductionHypothesis =>
    rw [List.foldl_cons, List.foldl_cons, inductionHypothesis _ fun other member =>
      negative other (List.mem_cons_of_mem _ member),
      Gpu.freeRid_server (negative rid List.mem_cons_self)]
/-- A release frees all that the caches hold, and leaves the tensor buffers. -/
theorem releaseKernels_coherent (coherent : world.Coherent) :
    world.releaseKernels.Coherent ∧ world.releaseKernels.buffers = world.buffers := by
  have owned_negative : ∀ rid ∈ world.cache.owned, rid < 0 := fun rid member =>
    coherent.negative rid (List.mem_append_left _ member)
  have same : world.releaseKernels.gpu.server =
      world.cache.owned.foldl (Server.release Object.deps) world.gpu.server :=
    freeRids_server _ _ owned_negative
  obtain ⟨ledger, keeps⟩ := coherent.ledger.releases coherent.release_ordered
  refine ⟨⟨same ▸ ledger, fun rid member =>
    coherent.negative rid (List.mem_append_right _ member), ?_⟩, rfl⟩
  refine ⟨nofun, fun some => absurd rfl some, fun some => absurd rfl some, fun rid member => ?_,
    rfl, nofun, nofun⟩
  exact same ▸ (coherent.named.tensors rid member).keeps keeps
    fun owned => coherent.not_tensor owned member

end World

end DressOn.Ggml.UniformSets
