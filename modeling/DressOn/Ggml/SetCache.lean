import Mathlib.Logic.Relation
import DressOn.Lib.Runs
import DressOn.Ggml.SetPaths

/-!
# The caches never serve a stale set

Each path that frees a buffer forgets exactly the sets that go with it, so a handle that comes back
names nothing in the caches. Whatever a graph binds is what its dispatches work on.
-/

namespace DressOn.Ggml.UniformSets

open Handles Server

namespace World

variable {world : World}

/-- One handle after another: what each step keeps is kept, and what it gives lasts. -/
theorem everyRid_spec {α : Type} {make : α → World → Rid × World} {kept : World → Prop}
    {given : α → Rid → World → Prop} {items : List α}
    (keeps : ∀ item ∈ items, ∀ world, kept world → kept (make item world).2)
    (gives : ∀ item ∈ items, ∀ world, kept world → (make item world).1 ≠ 0 →
      given item (make item world).1 (make item world).2)
    (lasts : ∀ item ∈ items, ∀ world, kept world → ∀ other rid, given other rid world →
      given other rid (make item world).2)
    (start : kept world) :
    kept (everyRid make items world).2 ∧
      (∀ other rid, given other rid world → given other rid (everyRid make items world).2) ∧
      ∀ rids, (everyRid make items world).1 = some rids →
        List.Forall₂ (fun item rid => given item rid (everyRid make items world).2) items rids := by
  induction items generalizing world with
  | nil =>
    refine ⟨start, fun _ _ => id, fun rids all => ?_⟩
    obtain rfl : [] = rids := Option.some.inj all
    exact .nil
  | cons item rest inductionHypothesis =>
    have first := keeps item List.mem_cons_self world start
    have gave := gives item List.mem_cons_self world start
    have lasted := lasts item List.mem_cons_self world start
    unfold everyRid
    dsimp only
    split
    next => exact ⟨first, lasted, nofun⟩
    next some_rid =>
      obtain ⟨others, last, all⟩ := inductionHypothesis
        (fun other member => keeps other (List.mem_cons_of_mem _ member))
        (fun other member => gives other (List.mem_cons_of_mem _ member))
        (fun other member => lasts other (List.mem_cons_of_mem _ member)) first
      refine ⟨others, fun other rid before => last other rid (lasted other rid before),
        fun rids made => ?_⟩
      obtain ⟨tail, found, rfl⟩ := Option.map_eq_some_iff.mp made
      exact .cons (last _ _ (gave some_rid)) (all tail found)

/-- The buffers that a dispatch names are live tensor buffers. -/
def Dispatch.InBuffers (dispatch : Dispatch) (buffers : List Rid) : Prop :=
  ∀ buffer ∈ [dispatch.s0, dispatch.s1, dispatch.s2, dispatch.dst], buffer ∈ buffers

/-- What is bound for a dispatch is what it works on: the params table, the buffers of its tensors
and the base of its slot. -/
structure Serves (world : World) (dispatch : Dispatch) (i : ℕ) (bound : Bound) : Prop where
  params : IsBuffer world.gpu.server world.cache.params
  tensors : Binds world.gpu.server world.cache.layoutShader bound.set0
    (dispatch.key world.cache.params).bindings
  slot : ∃ ubo, world.gpu.server.at? ubo = some (.buffer 16 [i * kWordsPerSlot, 0, 0, 0]) ∧
    Binds world.gpu.server world.cache.layoutShader bound.slot (slotBindings ubo)

/-- A slot that is there is served without making one. -/
theorem slotSet_eq {i : ℕ} (some_layout : world.cache.layoutShader ≠ 0)
    (less : i < world.cache.slotSets.length) :
    world.slotSet i = (world.cache.slotSets.getD i 0, world) := by
  have none_missing : i + 1 - world.cache.slotSets.length = 0 := by omega
  rw [slotSet, if_neg some_layout, none_missing]
  rfl

/-- A coherent cache serves a dispatch whose sets are in it. -/
theorem Coherent.serves (coherent : world.Coherent) {dispatch : Dispatch} {i : ℕ} {set : Rid}
    (pipeline : Rid) (cached : (dispatch.key world.cache.params, set) ∈ world.cache.set0)
    (less : i < world.cache.slotSets.length) :
    Serves world dispatch i ⟨pipeline, set, (world.slotSet i).1⟩ := by
  obtain ⟨some_layout, some_params, -, -, binds⟩ := coherent.named.set0 _ cached
  obtain ⟨-, ubo, -, base, slot⟩ :=
    coherent.named.slotSets i _ (List.getElem?_eq_getElem less)
  refine ⟨coherent.named.params some_params, binds, ubo, base, ?_⟩
  rw [slotSet_eq some_layout less]
  simpa [List.getD_eq_getElem?_getD, less] using slot

/-- Making the pipelines of a graph. -/
theorem pipelines_coherent (table : Table) (dispatches : List Dispatch)
    (coherent : world.Coherent) :
    (everyRid (fun dispatch => kernelPipeline table dispatch.kernel) dispatches world).2.Coherent ∧
      (everyRid (fun dispatch => kernelPipeline table dispatch.kernel) dispatches world).2.buffers =
        world.buffers := by
  have spec := @everyRid_spec world _ (fun dispatch => kernelPipeline table dispatch.kernel)
    (fun after => after.Coherent ∧ after.buffers = world.buffers) (fun _ _ _ => True) dispatches
    (fun dispatch _ middle ⟨kept, buffers⟩ =>
      have ⟨after, same⟩ := kernelPipeline_coherent table dispatch.kernel kept
      ⟨after, same.trans buffers⟩)
    (fun _ _ _ _ _ => trivial) (fun _ _ _ _ _ _ _ => trivial) ⟨coherent, rfl⟩
  exact spec.1

/-- Making the slots of a graph. -/
theorem slots_coherent (count : ℕ) (coherent : world.Coherent) :
    (everyRid slotSet (List.range count) world).2.Coherent ∧
      (everyRid slotSet (List.range count) world).2.buffers = world.buffers ∧
      (everyRid slotSet (List.range count) world).2.cache.params = world.cache.params ∧
      ∀ rids, (everyRid slotSet (List.range count) world).1 = some rids →
        count ≤ (everyRid slotSet (List.range count) world).2.cache.slotSets.length := by
  have spec := @everyRid_spec world _ slotSet
    (fun after => after.Coherent ∧ after.buffers = world.buffers ∧
      after.cache.params = world.cache.params)
    (fun i _ after => i < after.cache.slotSets.length) (List.range count)
    (fun i _ middle ⟨kept, buffers, params⟩ =>
      have ⟨after, same, _⟩ := slotSet_coherent i kept
      ⟨after, same.buffers.trans buffers, same.params.trans params⟩)
    (fun i _ middle ⟨kept, _⟩ => (slotSet_coherent i kept).2.2.2)
    (fun i _ middle ⟨kept, _⟩ _ _ less => less.trans_le (slotSet_coherent i kept).2.2.1)
    ⟨coherent, rfl, rfl⟩
  obtain ⟨⟨after, buffers, params⟩, -, all⟩ := spec
  refine ⟨after, buffers, params, fun rids made => ?_⟩
  have slots := all rids made
  by_contra short
  have last : count - 1 < (List.range count).length := by
    rw [List.length_range]
    omega
  have less := slots.get last (slots.length_eq ▸ last)
  simp only [List.get_eq_getElem, List.getElem_range] at less
  omega

/-- Making the sets of tensors of a graph. -/
theorem tensors_coherent {dispatches : List Dispatch} {params : Rid} (coherent : world.Coherent)
    (tensors : ∀ dispatch ∈ dispatches, dispatch.InBuffers world.buffers) (some_params : params ≠ 0)
    (current : world.cache.params = params) :
    (everyRid (fun dispatch => tensorSet (dispatch.key params)) dispatches world).2.Coherent ∧
      (everyRid (fun dispatch => tensorSet (dispatch.key params)) dispatches world).2.cache.params =
        params ∧
      (everyRid (fun dispatch => tensorSet (dispatch.key params)) dispatches world).2.cache.slotSets =
        world.cache.slotSets ∧
      ∀ rids, (everyRid (fun dispatch => tensorSet (dispatch.key params)) dispatches world).1 =
          some rids →
        List.Forall₂ (fun dispatch rid => (dispatch.key params, rid) ∈ (everyRid (fun dispatch =>
          tensorSet (dispatch.key params)) dispatches world).2.cache.set0) dispatches rids := by
  have spec := @everyRid_spec world _ (fun dispatch => tensorSet (dispatch.key params))
    (fun after => after.Coherent ∧ after.buffers = world.buffers ∧
      after.cache.params = params ∧ after.cache.slotSets = world.cache.slotSets)
    (fun dispatch rid after => (dispatch.key params, rid) ∈ after.cache.set0) dispatches
    (fun dispatch member middle ⟨kept, buffers, same, slots⟩ =>
      have ⟨after, others, sets, _⟩ := tensorSet_coherent kept (same ▸ some_params) same.symm
        (buffers ▸ tensors dispatch member)
      ⟨after, others.buffers.trans buffers, others.params.trans same, sets.trans slots⟩)
    (fun dispatch member middle ⟨kept, buffers, same, _⟩ =>
      (tensorSet_coherent kept (same ▸ some_params) same.symm
        (buffers ▸ tensors dispatch member)).2.2.2.2)
    (fun dispatch member middle ⟨kept, buffers, same, _⟩ _ _ =>
      (tensorSet_coherent kept (same ▸ some_params) same.symm
        (buffers ▸ tensors dispatch member)).2.2.2.1 _)
    ⟨coherent, rfl, current, rfl⟩
  obtain ⟨⟨after, -, params, slots⟩, -, all⟩ := spec
  exact ⟨after, params, slots, all⟩

/-- A graph keeps the caches coherent, and what it binds for each dispatch serves it. -/
theorem graphCompute_coherent (table : Table) {dispatches : List Dispatch}
    (coherent : world.Coherent)
    (tensors : ∀ dispatch ∈ dispatches, dispatch.InBuffers world.buffers) :
    (graphCompute table dispatches world).2.Coherent ∧
      ∀ bounds, (graphCompute table dispatches world).1 = some bounds →
        bounds.length = dispatches.length ∧
          ∀ i dispatch bound, dispatches[i]? = some dispatch → bounds[i]? = some bound →
            Serves (graphCompute table dispatches world).2 dispatch i bound := by
  unfold graphCompute
  split
  next none =>
    subst none
    refine ⟨coherent, fun bounds all => ?_⟩
    obtain rfl : [] = bounds := Option.some.inj all
    exact ⟨rfl, nofun⟩
  have pipelines := pipelines_coherent table dispatches coherent
  generalize everyRid (fun dispatch => kernelPipeline table dispatch.kernel) dispatches world
    = result at pipelines ⊢
  obtain ⟨made, first⟩ := result
  obtain ⟨coherent_first, buffers_first⟩ := pipelines
  cases made with
  | none => exact ⟨coherent_first, nofun⟩
  | some _ =>
  obtain ⟨coherent_table, buffers_table, params_table⟩ :=
    paramsBuffer_coherent dispatches.length coherent_first
  dsimp only at buffers_first ⊢
  generalize first.paramsBuffer dispatches.length = table_result at *
  obtain ⟨params, second⟩ := table_result
  dsimp only at coherent_table buffers_table params_table ⊢
  split
  next => exact ⟨coherent_table, nofun⟩
  next some_params =>
  have slots := slots_coherent dispatches.length coherent_table
  generalize everyRid slotSet (List.range dispatches.length) second = result at slots ⊢
  obtain ⟨made, third⟩ := result
  obtain ⟨coherent_slots, buffers_slots, params_slots, slots_made⟩ := slots
  cases made with
  | none => exact ⟨coherent_slots, nofun⟩
  | some slot_rids =>
  have enough := slots_made slot_rids rfl
  dsimp only at buffers_slots params_slots enough ⊢
  have cached := tensors_coherent coherent_slots
    (fun dispatch member => (buffers_slots.trans (buffers_table.trans buffers_first)) ▸
      tensors dispatch member)
    some_params (params_slots.trans (params_table some_params))
  generalize everyRid (fun dispatch => tensorSet (dispatch.key params)) dispatches third
    = result at cached ⊢
  obtain ⟨made, last⟩ := result
  obtain ⟨coherent_last, params_last, slots_last, all_cached⟩ := cached
  cases made with
  | none => exact ⟨coherent_last, nofun⟩
  | some sets =>
  have cached := all_cached sets rfl
  dsimp only at params_last slots_last cached ⊢
  refine ⟨coherent_last, fun bounds all => ?_⟩
  obtain rfl := Option.some.inj all
  refine ⟨by simp [← cached.length_eq], fun i dispatch bound listed bound_listed => ?_⟩
  rw [List.getElem?_mapIdx, Option.map_eq_some_iff] at bound_listed
  obtain ⟨⟨other, set⟩, zipped, rfl⟩ := bound_listed
  obtain ⟨listed_other, listed_set⟩ := List.getElem?_zip_eq_some.mp zipped
  obtain rfl : dispatch = other := Option.some.inj (listed.symm.trans listed_other)
  obtain ⟨less, rfl⟩ := List.getElem?_eq_some_iff.mp listed
  obtain ⟨less_sets, rfl⟩ := List.getElem?_eq_some_iff.mp listed_set
  refine coherent_last.serves _ ?_ (by rw [slots_last]; omega)
  rw [params_last]
  exact cached.get less less_sets

/-- One step of the backend. A graph works on live tensor buffers. -/
inductive Step (table : Table) : World → World → Prop
  | alloc {world : World} (size : ℕ) : Step table world (world.allocBuffer table size)
  | free {world : World} (buffer : Rid) (member : buffer ∈ world.buffers) :
      Step table world (world.bufferFree buffer)
  | graph {world : World} (dispatches : List Dispatch)
      (tensors : ∀ dispatch ∈ dispatches, dispatch.InBuffers world.buffers) :
      Step table world (graphCompute table dispatches world).2
  | grow {world : World} (slots : ℕ) : Step table world (world.paramsBuffer slots).2
  | release {world : World} : Step table world world.releaseKernels

theorem Step.coherent {table : Table} {before after : World} (step : Step table before after)
    (coherent : before.Coherent) : after.Coherent := by
  cases step with
  | alloc size => exact allocBuffer_coherent table size coherent
  | free buffer member => exact bufferFree_coherent coherent member
  | graph dispatches tensors => exact (graphCompute_coherent table coherent tensors).1
  | grow slots => exact (paramsBuffer_coherent slots coherent).1
  | release => exact (releaseKernels_coherent coherent).1

/-- Every object that is gone was freed once, no other one was, and no handle was freed in vain. -/
def FreedOnce (server : Server Rid Object) : Prop :=
  (∀ n < server.next, server.frees n = if (server.live n).isSome then 0 else 1) ∧
    server.faults = 0

/-- A set that is not freed is in the caches. -/
def SetsCached (world : World) : Prop :=
  ∀ n shader bindings, world.gpu.server.live n = some (.set shader bindings) →
    ∃ set ∈ world.cache.set0.map Prod.snd ++ world.cache.slotSets,
      world.gpu.server.held set = some n

theorem Coherent.freedOnce (coherent : world.Coherent) : FreedOnce world.gpu.server :=
  ⟨coherent.ledger.sound.once, coherent.ledger.sound.faultless⟩

/-- The handle of a set is one of those of the two caches. -/
theorem Coherent.setsCached (coherent : world.Coherent) : world.SetsCached := by
  intro n shader bindings live
  obtain ⟨rid, member, holds⟩ := coherent.ledger.tracked n _ live
  refine ⟨rid, ?_, holds⟩
  have there : world.gpu.server.at? rid = some (.set shader bindings) :=
    at?_eq_some.mpr ⟨n, holds, live⟩
  have not_buffer : ¬ IsBuffer world.gpu.server rid := by
    rintro ⟨bytes, words, buffer⟩
    cases buffer.symm.trans there
  rcases List.mem_append.mp member with owned | tensor
  · rcases State.mem_owned.mp owned with ⟨entry, cached, rfl⟩ | slot | ubo | ⟨some, rfl⟩ |
      ⟨entry, cached, kern⟩
    · exact List.mem_append_left _ (List.mem_map_of_mem cached)
    · exact List.mem_append_right _ slot
    · exact absurd (coherent.named.ubo_buffer ubo) not_buffer
    · exact absurd (coherent.named.params some) not_buffer
    · obtain ⟨number, -, is_shader, is_pipeline⟩ := coherent.named.kerns entry cached
      rcases kern with rfl | rfl
      · cases is_pipeline.symm.trans there
      · cases is_shader.symm.trans there
  · exact absurd (coherent.named.tensors rid tensor) not_buffer

/-- A device without objects is coherent. -/
theorem coherent_start (proposals : List (Option Rid)) :
    World.Coherent { gpu := { proposals } } :=
  ⟨.empty, nofun, ⟨nofun, fun some => absurd rfl some, fun some => absurd rfl some, nofun, rfl,
    nofun, nofun⟩⟩

/-- In any run the sets that a graph binds are the ones that it works with, no set is freed twice
or left behind, and a release frees them all. -/
theorem sets_never_stale (table : Table) (proposals : List (Option Rid)) {world : World}
    (run : Relation.ReflTransGen (Step table) { gpu := { proposals } } world) :
    (∀ dispatches : List Dispatch,
        (∀ dispatch ∈ dispatches, dispatch.InBuffers world.buffers) →
        ∀ bounds, (graphCompute table dispatches world).1 = some bounds →
          bounds.length = dispatches.length ∧
            ∀ i dispatch bound, dispatches[i]? = some dispatch → bounds[i]? = some bound →
              Serves (graphCompute table dispatches world).2 dispatch i bound) ∧
      FreedOnce world.gpu.server ∧ world.SetsCached ∧
      FreedOnce world.releaseKernels.gpu.server ∧
      ∀ n shader bindings,
        world.releaseKernels.gpu.server.live n ≠ some (.set shader bindings) := by
  have coherent : world.Coherent :=
    @Runs.kept_of_moves _ (Step table) World.Coherent (fun _ _ step => step.coherent) _ _ run
      (coherent_start proposals)
  have released := (releaseKernels_coherent coherent).1
  refine ⟨fun dispatches tensors => (graphCompute_coherent table coherent tensors).2,
    coherent.freedOnce, coherent.setsCached, released.freedOnce, fun n shader bindings live => ?_⟩
  obtain ⟨set, member, -⟩ := released.setsCached n shader bindings live
  simp [releaseKernels] at member

/-- A table of one small kernel. -/
def oneKernel : Table := ⟨1, fun _ => "add", fun _ => true, 4096⟩

/-- A graph of one dispatch that works on a single tensor. -/
def onTensor (rid : Rid) : List Dispatch := [⟨0, rid, rid, rid, rid⟩]

/-- A device that hands the handle of a freed set out for a buffer, and that of a freed buffer for
a set. -/
def recycling : World :=
  { gpu := { proposals := [some (-1), some 0, some (-2), some (-3), some (-4), some 0, some (-5),
      some (-6), some (-7), some (-7), some 0, some (-1)] } }

/-- A tensor is worked on and freed, and another one is allocated. -/
def recycled : World :=
  ((graphCompute oneKernel (onTensor (-1)) (recycling.allocBuffer oneKernel 4)).2.bufferFree
    (-1)).allocBuffer oneKernel 4

/-- The second graph binds a new set, under the handle of the first tensor. -/
theorem recycled_never_stale :
    (graphCompute oneKernel (onTensor (-7)) recycled).1.map (List.map Bound.set0) = some [-1] ∧
      FreedOnce recycled.gpu.server ∧
      ∀ bounds, (graphCompute oneKernel (onTensor (-7)) recycled).1 = some bounds →
        bounds.length = 1 ∧ ∀ i dispatch bound, (onTensor (-7))[i]? = some dispatch →
          bounds[i]? = some bound →
            Serves (graphCompute oneKernel (onTensor (-7)) recycled).2 dispatch i bound := by
  have run : Relation.ReflTransGen (Step oneKernel) recycling recycled :=
    .head (.alloc 4) (.head (.graph (onTensor (-1)) (by unfold Dispatch.InBuffers; decide +kernel))
      (.head (.free (-1) (by decide +kernel)) (.single (.alloc 4))))
  have never := sets_never_stale oneKernel recycling.gpu.proposals run
  exact ⟨by decide +kernel, never.2.1,
    never.1 (onTensor (-7)) (by unfold Dispatch.InBuffers; decide +kernel)⟩

end World

end DressOn.Ggml.UniformSets
