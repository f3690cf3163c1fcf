import Mathlib.Data.List.Forall2
import Mathlib.Data.List.Nodup
import DressOn.Ggml.UniformSets

/-!
# What the caches name

Every handle of the caches names what it is kept for, and every cached set binds what its key
names. The handles of the caches and of the tensor buffers account for every live object of the
device. A release can free them in its order: nothing depends on what comes before it.
-/

namespace DressOn.Ggml.UniformSets

open Handles Server

/-- A buffer is behind the handle. -/
def IsBuffer (server : Server Rid Object) (rid : Rid) : Prop :=
  ∃ bytes words, server.at? rid = some (.buffer bytes words)

/-- The set is made against the shader and binds exactly the buffers behind the handles. -/
def Binds (server : Server Rid Object) (shader set : Rid) (bindings : List (ℕ × Rid)) : Prop :=
  ∃ number numbers, server.held shader = some number ∧
    server.at? set = some (.set number numbers) ∧
    List.Forall₂ (fun binding entry => binding.1 = entry.1 ∧ server.held binding.2 = some entry.2)
      bindings numbers

/-- Every handle names what it is kept for, and every set binds what it is cached for. -/
structure Named (server : Server Rid Object) (cache : State) (buffers : List Rid) : Prop where
  kerns : ∀ entry ∈ cache.kerns, ∃ number, server.held entry.2.shader = some number ∧
    server.at? entry.2.shader = some .shader ∧
    server.at? entry.2.pipeline = some (.pipeline number)
  layout : cache.layoutShader ≠ 0 → ∃ entry ∈ cache.kerns, entry.2.shader = cache.layoutShader
  params : cache.params ≠ 0 → IsBuffer server cache.params
  tensors : ∀ rid ∈ buffers, IsBuffer server rid
  slots : cache.slotUbos.length = cache.slotSets.length
  slotSets : ∀ i set, cache.slotSets[i]? = some set → cache.layoutShader ≠ 0 ∧
    ∃ ubo, cache.slotUbos[i]? = some ubo ∧
      server.at? ubo = some (.buffer 16 [i * kWordsPerSlot, 0, 0, 0]) ∧
      Binds server cache.layoutShader set (slotBindings ubo)
  set0 : ∀ entry ∈ cache.set0, cache.layoutShader ≠ 0 ∧ cache.params ≠ 0 ∧
    entry.1.params = cache.params ∧
    (∀ buffer ∈ [entry.1.s0, entry.1.s1, entry.1.s2, entry.1.dst], buffer ∈ buffers) ∧
    Binds server cache.layoutShader entry.2 entry.1.bindings

/-- The caches and the tensor buffers account for the device, under handles that are kept. -/
structure Coherent (server : Server Rid Object) (cache : State) (buffers : List Rid) : Prop where
  ledger : Ledger Object.deps server (cache.owned ++ buffers)
  negative : ∀ rid ∈ cache.owned ++ buffers, rid < 0
  named : Named server cache buffers

variable {server after : Server Rid Object} {cache : State} {buffers : List Rid}
  {lost : Rid → Prop} {rid shader set : Rid} {bindings : List (ℕ × Rid)}

theorem IsBuffer.keeps (buffer : IsBuffer server rid) (keeps : Keeps lost server after)
    (stays : ¬ lost rid) : IsBuffer after rid :=
  have ⟨bytes, words, there⟩ := buffer
  ⟨bytes, words, keeps.at? stays there⟩

/-- A handle with an object behind it keeps its number. -/
theorem held_keeps (keeps : Keeps lost server after) {object : Object} {number : ℕ}
    (there : server.at? rid = some object) (holds : server.held rid = some number)
    (stays : ¬ lost rid) : after.held rid = some number := by
  obtain ⟨n, same, live⟩ := at?_eq_some.mp there
  obtain rfl : number = n := Option.some.inj (holds.symm.trans same)
  exact (keeps rid number object stays holds live).1

theorem Binds.keeps (binds : Binds server shader set bindings) (keeps : Keeps lost server after)
    (shader_stays : ¬ lost shader) (is_shader : server.at? shader = some .shader)
    (set_stays : ¬ lost set)
    (buffers : ∀ binding ∈ bindings, ¬ lost binding.2 ∧ IsBuffer server binding.2) :
    Binds after shader set bindings := by
  obtain ⟨number, numbers, holds, there, entries⟩ := binds
  refine ⟨number, numbers, held_keeps keeps is_shader holds shader_stays,
    keeps.at? set_stays there, ?_⟩
  clear there
  induction entries with
  | nil => exact .nil
  | cons first _ inductionHypothesis =>
    obtain ⟨stays, bytes, words, behind⟩ := buffers _ List.mem_cons_self
    exact .cons ⟨first.1, held_keeps keeps behind first.2 stays⟩
      (inductionHypothesis fun binding member => buffers binding (List.mem_cons_of_mem _ member))

/-- The handles of the caches, by what they are kept for. -/
theorem State.mem_owned {rid : Rid} : rid ∈ cache.owned ↔
    (∃ entry ∈ cache.set0, entry.2 = rid) ∨ rid ∈ cache.slotSets ∨ rid ∈ cache.slotUbos ∨
      (cache.params ≠ 0 ∧ rid = cache.params) ∨
      ∃ entry ∈ cache.kerns, rid = entry.2.pipeline ∨ rid = entry.2.shader := by
  by_cases null : cache.params = 0 <;> simp [State.owned, null]

namespace Named

/-- The layout shader is a shader. -/
theorem layout_shader (named : Named server cache buffers)
    (some_layout : cache.layoutShader ≠ 0) : server.at? cache.layoutShader = some .shader := by
  obtain ⟨entry, member, same⟩ := named.layout some_layout
  obtain ⟨-, -, there, -⟩ := named.kerns entry member
  exact same ▸ there

/-- A uniform buffer of a slot is a buffer. -/
theorem ubo_buffer (named : Named server cache buffers) (member : rid ∈ cache.slotUbos) :
    IsBuffer server rid := by
  obtain ⟨i, less, same⟩ := List.getElem_of_mem member
  have less_sets : i < cache.slotSets.length := named.slots ▸ less
  obtain ⟨-, ubo, found, there, -⟩ :=
    named.slotSets i _ (List.getElem?_eq_getElem less_sets)
  rw [List.getElem?_eq_getElem less, Option.some.injEq] at found
  exact ⟨_, _, (same.symm.trans found) ▸ there⟩

/-- What a set of tensors binds are buffers. -/
theorem key_buffers (named : Named server cache buffers) {entry : Key × Rid}
    (member : entry ∈ cache.set0) :
    ∀ binding ∈ entry.1.bindings, IsBuffer server binding.2 := by
  obtain ⟨-, some_params, params, tensors, -⟩ := named.set0 entry member
  simp only [List.mem_cons, List.not_mem_nil, or_false, forall_eq_or_imp, forall_eq] at tensors
  obtain ⟨s0, s1, s2, dst⟩ := tensors
  simp only [Key.bindings, List.mem_cons, List.not_mem_nil, or_false, forall_eq_or_imp, forall_eq]
  exact ⟨params ▸ named.params some_params, named.tensors _ s0, named.tensors _ s1,
    named.tensors _ s2, named.tensors _ dst⟩

/-- Where nothing is lost the names stay right. -/
theorem keeps (named : Named server cache buffers) (keeps : Keeps (fun _ => False) server after) :
    Named after cache buffers := by
  refine ⟨fun entry member => ?_, named.layout,
    fun some_params => (named.params some_params).keeps keeps id,
    fun rid member => (named.tensors rid member).keeps keeps id, named.slots,
    fun i set found => ?_, fun entry member => ?_⟩
  · obtain ⟨number, holds, shader, pipeline⟩ := named.kerns entry member
    exact ⟨number, held_keeps keeps shader holds id, keeps.at? id shader, keeps.at? id pipeline⟩
  · obtain ⟨some_layout, ubo, same, there, binds⟩ := named.slotSets i set found
    refine ⟨some_layout, ubo, same, keeps.at? id there,
      binds.keeps keeps id (named.layout_shader some_layout) id ?_⟩
    simp only [slotBindings, List.mem_singleton, forall_eq]
    exact ⟨id, _, _, there⟩
  · obtain ⟨some_layout, some_params, params, tensors, binds⟩ := named.set0 entry member
    exact ⟨some_layout, some_params, params, tensors,
      binds.keeps keeps id (named.layout_shader some_layout) id
        fun binding bound => ⟨id, named.key_buffers member binding bound⟩⟩

/-- Sets, tensor buffers or the params table are given up, and nothing else is lost. -/
theorem shrink (named : Named server cache buffers) (keeps : Keeps lost server after)
    {sets : List (Key × Rid)} {params : Rid} {slots : ℕ} {left : List Rid}
    (sets_left : ∀ entry ∈ sets, entry ∈ cache.set0 ∧ params = cache.params ∧
      ∀ buffer ∈ [entry.1.s0, entry.1.s1, entry.1.s2, entry.1.dst], buffer ∈ left)
    (tensors_left : ∀ rid ∈ left, rid ∈ buffers)
    (params_left : params ≠ 0 → params = cache.params)
    (stays : ∀ rid ∈ State.owned { cache with set0 := sets, params, paramsSlots := slots } ++ left,
      ¬ lost rid) :
    Named after { cache with set0 := sets, params, paramsSlots := slots } left := by
  have owned_stays {rid : Rid}
      (member : rid ∈ State.owned { cache with set0 := sets, params, paramsSlots := slots }) :
      ¬ lost rid := stays rid (List.mem_append_left _ member)
  have kern_stays {entry : ℕ × Kern} (member : entry ∈ cache.kerns) :
      ¬ lost entry.2.pipeline ∧ ¬ lost entry.2.shader := by
    constructor <;> refine owned_stays (State.mem_owned.mpr
      (.inr (.inr (.inr (.inr ⟨entry, member, ?_⟩)))))
    · exact .inl rfl
    · exact .inr rfl
  have layout_stays (some_layout : cache.layoutShader ≠ 0) : ¬ lost cache.layoutShader := by
    obtain ⟨entry, member, same⟩ := named.layout some_layout
    exact same ▸ (kern_stays member).2
  refine ⟨fun entry member => ?_, named.layout, fun some_params => ?_,
    fun rid member => (named.tensors rid (tensors_left rid member)).keeps keeps
      (stays rid (List.mem_append_right _ member)), named.slots, fun i set found => ?_,
    fun entry member => ?_⟩
  · obtain ⟨number, holds, is_shader, is_pipeline⟩ := named.kerns entry member
    exact ⟨number, held_keeps keeps is_shader holds (kern_stays member).2,
      keeps.at? (kern_stays member).2 is_shader, keeps.at? (kern_stays member).1 is_pipeline⟩
  · have buffer := named.params (params_left some_params ▸ some_params)
    refine (params_left some_params ▸ buffer).keeps keeps (owned_stays (State.mem_owned.mpr ?_))
    exact .inr (.inr (.inr (.inl ⟨some_params, rfl⟩)))
  · obtain ⟨some_layout, ubo, same, there, binds⟩ := named.slotSets i set found
    have ubo_stays : ¬ lost ubo := owned_stays
      (State.mem_owned.mpr (.inr (.inr (.inl (List.mem_of_getElem? same)))))
    have set_stays : ¬ lost set := owned_stays
      (State.mem_owned.mpr (.inr (.inl (List.mem_of_getElem? found))))
    refine ⟨some_layout, ubo, same, keeps.at? ubo_stays there, binds.keeps keeps
      (layout_stays some_layout) (named.layout_shader some_layout) set_stays ?_⟩
    simp only [slotBindings, List.mem_singleton, forall_eq]
    exact ⟨ubo_stays, _, _, there⟩
  · obtain ⟨cached, params_same, tensors⟩ := sets_left entry member
    obtain ⟨some_layout, some_params, params_key, -, binds⟩ := named.set0 entry cached
    have some_left : params ≠ 0 := params_same ▸ some_params
    have params_stays : ¬ lost params := owned_stays
      (State.mem_owned.mpr (.inr (.inr (.inr (.inl ⟨some_left, rfl⟩)))))
    have set_stays : ¬ lost entry.2 := owned_stays
      (State.mem_owned.mpr (.inl ⟨entry, member, rfl⟩))
    have tensor_stays {buffer : Rid} (member : buffer ∈ left) : ¬ lost buffer :=
      stays buffer (List.mem_append_right _ member)
    refine ⟨some_layout, some_left, params_key.trans params_same.symm, tensors,
      binds.keeps keeps (layout_stays some_layout) (named.layout_shader some_layout) set_stays
        fun binding bound => ⟨?_, named.key_buffers cached binding bound⟩⟩
    simp only [List.mem_cons, List.not_mem_nil, or_false, forall_eq_or_imp, forall_eq] at tensors
    obtain ⟨s0, s1, s2, dst⟩ := tensors
    simp only [Key.bindings, List.mem_cons, List.not_mem_nil, or_false] at bound
    rcases bound with rfl | rfl | rfl | rfl | rfl
    · exact params_key.trans params_same.symm ▸ params_stays
    · exact tensor_stays s0
    · exact tensor_stays s1
    · exact tensor_stays s2
    · exact tensor_stays dst

/-- A kernel joins. The first one gives its shader for the sets. -/
theorem add_kern (named : Named server cache buffers) (k : ℕ) {kern : Kern} {number : ℕ}
    (holds : server.held kern.shader = some number)
    (is_shader : server.at? kern.shader = some .shader)
    (is_pipeline : server.at? kern.pipeline = some (.pipeline number)) :
    Named server { cache with
      kerns := (k, kern) :: cache.kerns
      layoutShader := if cache.layoutShader = 0 then kern.shader else cache.layoutShader }
      buffers := by
  refine ⟨fun entry member => ?_, fun _ => ?_, named.params, named.tensors, named.slots,
    fun i set found => ?_, fun entry member => ?_⟩
  · rcases List.mem_cons.mp member with rfl | member
    · exact ⟨number, holds, is_shader, is_pipeline⟩
    · exact named.kerns entry member
  · dsimp only
    split
    next => exact ⟨_, List.mem_cons_self, rfl⟩
    next some_layout =>
      obtain ⟨entry, member, same⟩ := named.layout some_layout
      exact ⟨entry, List.mem_cons_of_mem _ member, same⟩
  · have found := named.slotSets i set found
    simpa only [if_neg found.1] using found
  · have found := named.set0 entry member
    simpa only [if_neg found.1] using found

/-- A params table joins. -/
theorem add_params (named : Named server cache buffers) (null : cache.params = 0) {params : Rid}
    (buffer : IsBuffer server params) (slots : ℕ) :
    Named server { cache with params, paramsSlots := slots } buffers :=
  ⟨named.kerns, named.layout, fun _ => buffer, named.tensors, named.slots, named.slotSets,
    fun entry member => absurd null (named.set0 entry member).2.1⟩

/-- A tensor buffer joins. -/
theorem add_buffer (named : Named server cache buffers) (buffer : IsBuffer server rid) :
    Named server cache (rid :: buffers) := by
  refine ⟨named.kerns, named.layout, named.params, List.forall_mem_cons.mpr ⟨buffer, named.tensors⟩,
    named.slots, named.slotSets, fun entry member => ?_⟩
  obtain ⟨some_layout, some_params, params, tensors, binds⟩ := named.set0 entry member
  exact ⟨some_layout, some_params, params,
    fun tensor bound => List.mem_cons_of_mem _ (tensors tensor bound), binds⟩

/-- A slot joins. -/
theorem add_slot (named : Named server cache buffers) {ubo : Rid}
    (some_layout : cache.layoutShader ≠ 0)
    (is_buffer : server.at? ubo =
      some (.buffer 16 [cache.slotSets.length * kWordsPerSlot, 0, 0, 0]))
    (binds : Binds server cache.layoutShader set (slotBindings ubo)) :
    Named server { cache with
      slotUbos := cache.slotUbos ++ [ubo]
      slotSets := cache.slotSets ++ [set] } buffers := by
  refine ⟨named.kerns, named.layout, named.params, named.tensors, ?_, fun i found there => ?_,
    named.set0⟩
  · simp [named.slots]
  · dsimp only at there ⊢
    by_cases less : i < cache.slotSets.length
    · rw [List.getElem?_append_left less] at there
      rw [List.getElem?_append_left (named.slots ▸ less)]
      exact named.slotSets i found there
    · have last : i < (cache.slotSets ++ [set]).length :=
        (List.getElem?_eq_some_iff.mp there).1
      rw [List.length_append, List.length_singleton] at last
      obtain rfl : i = cache.slotSets.length := by omega
      rw [List.getElem?_concat_length, Option.some.injEq] at there
      subst there
      refine ⟨some_layout, ubo, ?_, is_buffer, binds⟩
      rw [← named.slots, List.getElem?_concat_length]

/-- A set of tensors joins. -/
theorem add_tensors (named : Named server cache buffers) {key : Key}
    (some_layout : cache.layoutShader ≠ 0) (some_params : cache.params ≠ 0)
    (params : key.params = cache.params)
    (tensors : ∀ buffer ∈ [key.s0, key.s1, key.s2, key.dst], buffer ∈ buffers)
    (binds : Binds server cache.layoutShader set key.bindings) :
    Named server { cache with set0 := (key, set) :: cache.set0 } buffers := by
  refine ⟨named.kerns, named.layout, named.params, named.tensors, named.slots, named.slotSets,
    fun entry member => ?_⟩
  rcases List.mem_cons.mp member with rfl | member
  · exact ⟨some_layout, some_params, params, tensors, binds⟩
  · exact named.set0 entry member

end Named

/-- A set depends on what it binds. -/
theorem Binds.depends (binds : Binds server shader set bindings) {binding : ℕ × Rid}
    (member : binding ∈ bindings) : server.Depends Object.deps set binding.2 := by
  obtain ⟨number, numbers, -, there, entries⟩ := binds
  obtain ⟨i, less, rfl⟩ := List.getElem_of_mem member
  have less_numbers : i < numbers.length := entries.length_eq ▸ less
  refine ⟨_, numbers[i].2, there, (entries.get less less_numbers).2, List.mem_cons_of_mem _ ?_⟩
  exact List.mem_map_of_mem (List.getElem_mem less_numbers)

/-- A set depends on its shader and on what it binds only. -/
theorem Binds.of_depends (binds : Binds server shader set bindings)
    (sound : Sound Object.deps server) (depends : server.Depends Object.deps set rid) :
    rid = shader ∨ ∃ binding ∈ bindings, binding.2 = rid := by
  obtain ⟨number, numbers, holds, there, entries⟩ := binds
  obtain ⟨object, needed, same, holds', needs⟩ := depends
  obtain rfl := Option.some.inj (there.symm.trans same)
  rcases List.mem_cons.mp needs with rfl | needs
  · exact .inl (sound.held_inj _ _ _ holds' holds)
  · obtain ⟨entry, member, rfl⟩ := List.mem_map.mp needs
    obtain ⟨i, less, rfl⟩ := List.getElem_of_mem member
    have less_bindings : i < bindings.length := entries.length_eq ▸ less
    refine .inr ⟨bindings[i], List.getElem_mem less_bindings, ?_⟩
    exact sound.held_inj _ _ _ (entries.get less_bindings less).2 holds'

/-- The numbers behind handles. -/
abbrev Resolves (server : Server Rid Object) : List (ℕ × Rid) → List (ℕ × ℕ) → Prop :=
  List.Forall₂ fun binding entry => binding.1 = entry.1 ∧ server.held binding.2 = some entry.2

/-- What a new set depends on is known. -/
theorem set_known {number : ℕ} {numbers : List (ℕ × ℕ)} (sound : Sound Object.deps server)
    (holds : server.held shader = some number) (entries : Resolves server bindings numbers) :
    ∀ needed ∈ Object.deps (.set number numbers), needed < server.next := by
  intro needed member
  rcases List.mem_cons.mp member with rfl | member
  · exact sound.held_lt _ _ holds
  · obtain ⟨entry, listed, rfl⟩ := List.mem_map.mp member
    obtain ⟨i, less, rfl⟩ := List.getElem_of_mem listed
    exact sound.held_lt _ _ (entries.get (entries.length_eq ▸ less) less).2

/-- A buffer depends on nothing. -/
theorem buffer_known (bytes : ℕ) (words : List ℕ) (server : Server Rid Object) :
    ∀ number ∈ Object.deps (.buffer bytes words), number < server.next := nofun

/-- A new set binds the buffers that it was made of. -/
theorem Binds.of_create {number : ℕ} {numbers : List (ℕ × ℕ)}
    (holds : server.held shader = some number) (entries : Resolves server bindings numbers)
    (unused : server.held set = none) :
    Binds (server.create set (.set number numbers)) shader set bindings := by
  have kept {rid : Rid} {n : ℕ} (out : server.held rid = some n) :
      (server.create set (.set number numbers)).held rid = some n := by
    have apart : rid ≠ set := by
      rintro rfl
      simp [unused] at out
    rwa [held_create_of_ne apart]
  exact ⟨number, numbers, kept holds, at?_create_self,
    entries.imp fun _ _ entry => ⟨entry.1, kept entry.2⟩⟩

/-- Of the handles of the caches only sets and pipelines depend on another: a set on its shader and
on what it binds, a pipeline on its shader. -/
inductive Needs (cache : State) (needer needed : Rid) : Prop
  | tensors (entry : Key × Rid) (member : entry ∈ cache.set0) (same : entry.2 = needer)
      (needs : needed = cache.layoutShader ∨ ∃ binding ∈ entry.1.bindings, binding.2 = needed)
  | slot (i : ℕ) (set : cache.slotSets[i]? = some needer)
      (needs : needed = cache.layoutShader ∨ cache.slotUbos[i]? = some needed)
  | kern (entry : ℕ × Kern) (member : entry ∈ cache.kerns) (same : entry.2.pipeline = needer)
      (needs : needed = entry.2.shader)

theorem IsBuffer.not_depends (buffer : IsBuffer server rid) {needed : Rid} :
    ¬ server.Depends Object.deps rid needed := by
  rintro ⟨object, number, there, -, needs⟩
  obtain ⟨bytes, words, same⟩ := buffer
  obtain rfl := Option.some.inj (same.symm.trans there)
  cases needs

namespace Coherent

variable {needer needed : Rid}

theorem sound (coherent : Coherent server cache buffers) : Sound Object.deps server :=
  coherent.ledger.sound

theorem needs (coherent : Coherent server cache buffers)
    (depends : server.Depends Object.deps needer needed) : Needs cache needer needed := by
  obtain ⟨object, number, there, holds, member⟩ := id depends
  have named := coherent.named
  rcases List.mem_append.mp (coherent.ledger.mem there) with owned | tensor
  swap
  · exact absurd depends (named.tensors needer tensor).not_depends
  rcases State.mem_owned.mp owned with ⟨entry, cached, same⟩ | slot | ubo | ⟨some_params, rfl⟩ |
    ⟨entry, cached, rfl | rfl⟩
  · obtain ⟨-, -, -, -, binds⟩ := named.set0 entry cached
    exact .tensors entry cached same (binds.of_depends coherent.sound (same ▸ depends))
  · obtain ⟨i, less, same⟩ := List.getElem_of_mem slot
    have found : cache.slotSets[i]? = some needer := by
      rw [List.getElem?_eq_getElem less, same]
    obtain ⟨-, ubo, at_slot, -, binds⟩ := named.slotSets i needer found
    refine .slot i found ((binds.of_depends coherent.sound depends).imp_right ?_)
    simpa [slotBindings] using fun same => same ▸ at_slot
  · exact absurd depends (named.ubo_buffer ubo).not_depends
  · exact absurd depends (named.params some_params).not_depends
  · obtain ⟨number', holds', -, is_pipeline⟩ := named.kerns entry cached
    obtain rfl := Option.some.inj (is_pipeline.symm.trans there)
    obtain rfl : number = number' := by simpa [Object.deps] using member
    exact .kern entry cached rfl (coherent.sound.held_inj _ _ _ holds holds')
  · obtain ⟨-, -, is_shader, -⟩ := named.kerns entry cached
    obtain rfl := Option.some.inj (is_shader.symm.trans there)
    cases member

/-- The handles of the caches are apart from the tensor buffers. -/
theorem not_tensor (coherent : Coherent server cache buffers) (owned : rid ∈ cache.owned) :
    rid ∉ buffers := fun tensor =>
  (List.nodup_append.mp coherent.ledger.distinct).2.2 rid owned rid tensor rfl

/-- The params table is no slot's buffer. -/
theorem params_not_ubo (coherent : Coherent server cache buffers) (some_params : cache.params ≠ 0) :
    cache.params ∉ cache.slotUbos := fun ubo => by
  have distinct := (List.nodup_append.mp coherent.ledger.distinct).1
  rw [State.owned, if_neg some_params] at distinct
  have apart := (List.nodup_append.mp (List.nodup_append.mp distinct).1).2.2
  exact apart _ (List.mem_append_right _ ubo) _ List.mem_cons_self rfl

/-- A buffer is no shader. -/
theorem buffer_ne_layout (coherent : Coherent server cache buffers) (buffer : IsBuffer server rid)
    (some_layout : cache.layoutShader ≠ 0) : rid ≠ cache.layoutShader := by
  rintro rfl
  obtain ⟨bytes, words, there⟩ := buffer
  cases there.symm.trans (coherent.named.layout_shader some_layout)

/-- What depends on a buffer is a set of tensors that binds it, or the set of its slot. -/
theorem needs_buffer (coherent : Coherent server cache buffers) (buffer : IsBuffer server needed)
    (depends : server.Depends Object.deps needer needed) :
    (∃ entry ∈ cache.set0, entry.2 = needer ∧ ∃ binding ∈ entry.1.bindings, binding.2 = needed) ∨
      needed ∈ cache.slotUbos := by
  cases coherent.needs depends with
  | tensors entry member same needs =>
    obtain ⟨some_layout, -⟩ := coherent.named.set0 entry member
    exact .inl ⟨entry, member, same,
      needs.resolve_left (coherent.buffer_ne_layout buffer some_layout)⟩
  | slot i set needs =>
    obtain ⟨some_layout, -⟩ := coherent.named.slotSets i needer set
    exact .inr (List.mem_of_getElem?
      (needs.resolve_left (coherent.buffer_ne_layout buffer some_layout)))
  | kern entry member same needs =>
    obtain ⟨-, -, is_shader, -⟩ := coherent.named.kerns entry member
    obtain ⟨bytes, words, there⟩ := buffer
    cases (needs ▸ there).symm.trans is_shader


/-- Nothing depends on a set. -/
theorem not_needs_set (coherent : Coherent server cache buffers) {number : ℕ}
    {numbers : List (ℕ × ℕ)} (is_set : server.at? needed = some (.set number numbers)) :
    ¬ server.Depends Object.deps needer needed := by
  have not_buffer : ¬ IsBuffer server needed := by
    rintro ⟨bytes, words, there⟩
    cases there.symm.trans is_set
  have not_shader : server.at? needed ≠ some .shader := fun there => by
    cases there.symm.trans is_set
  intro depends
  cases coherent.needs depends with
  | tensors entry member same needs =>
    obtain ⟨some_layout, -⟩ := coherent.named.set0 entry member
    rcases needs with rfl | ⟨binding, bound, rfl⟩
    · exact not_shader (coherent.named.layout_shader some_layout)
    · exact not_buffer (coherent.named.key_buffers member binding bound)
  | slot i set needs =>
    obtain ⟨some_layout, -⟩ := coherent.named.slotSets i needer set
    rcases needs with rfl | ubo
    · exact not_shader (coherent.named.layout_shader some_layout)
    · exact not_buffer (coherent.named.ubo_buffer (List.mem_of_getElem? ubo))
  | kern entry member same needs =>
    obtain ⟨-, -, is_shader, -⟩ := coherent.named.kerns entry member
    exact not_shader (needs ▸ is_shader)

/-- A kernel's pipeline depends on its shader only, which depends on nothing. -/
theorem kern_needs (coherent : Coherent server cache buffers) {entry : ℕ × Kern}
    (member : entry ∈ cache.kerns) (of_kern : needer ∈ [entry.2.pipeline, entry.2.shader])
    (depends : server.Depends Object.deps needer needed) :
    needer = entry.2.pipeline ∧ needed = entry.2.shader := by
  obtain ⟨number, holds, is_shader, is_pipeline⟩ := coherent.named.kerns entry member
  obtain ⟨object, needs, there, holds', dependency⟩ := depends
  rcases List.mem_pair.mp of_kern with rfl | rfl
  · obtain rfl := Option.some.inj (is_pipeline.symm.trans there)
    obtain rfl : needs = number := by simpa [Object.deps] using dependency
    exact ⟨rfl, coherent.sound.held_inj _ _ _ holds' holds⟩
  · obtain rfl := Option.some.inj (is_shader.symm.trans there)
    cases dependency

/-- Of two kernels neither depends on the other. -/
theorem kerns_ordered (coherent : Coherent server cache buffers) :
    (cache.kerns.flatMap fun entry => [entry.2.pipeline, entry.2.shader]).Pairwise
      fun earlier later => ¬ server.Depends Object.deps later earlier := by
  have distinct := (List.nodup_append.mp coherent.ledger.distinct).1
  rw [State.owned] at distinct
  obtain ⟨-, apart⟩ := List.nodup_flatMap.mp (List.nodup_append.mp distinct).2.1
  refine List.pairwise_flatMap.mpr ⟨fun entry member => ?_, apart.imp_of_mem ?_⟩
  · refine List.pairwise_pair.mpr fun depends => ?_
    obtain ⟨same, -⟩ := coherent.kern_needs member (by simp) depends
    obtain ⟨number, -, is_shader, is_pipeline⟩ := coherent.named.kerns entry member
    cases (same ▸ is_shader).symm.trans is_pipeline
  · intro first second member_first member_second disjoint earlier in_first later in_second depends
    obtain ⟨-, rfl⟩ := coherent.kern_needs member_second in_second depends
    exact disjoint in_first (by simp)

/-- In the order of the release nothing depends on what was freed before it: sets come first, then
the buffers that they bind, and each pipeline comes before its shader. -/
theorem release_ordered (coherent : Coherent server cache buffers) :
    (cache.owned ++ buffers).Pairwise fun earlier later =>
      ¬ server.Depends Object.deps later earlier := by
  have named := coherent.named
  have is_set : ∀ rid ∈ cache.set0.map Prod.snd ++ cache.slotSets,
      ∃ number numbers, server.at? rid = some (.set number numbers) := by
    intro rid member
    rcases List.mem_append.mp member with tensors | slot
    · obtain ⟨entry, cached, rfl⟩ := List.mem_map.mp tensors
      obtain ⟨-, -, -, -, number, numbers, -, there, -⟩ := named.set0 entry cached
      exact ⟨number, numbers, there⟩
    · obtain ⟨i, less, rfl⟩ := List.getElem_of_mem slot
      obtain ⟨-, -, -, -, number, numbers, -, there, -⟩ :=
        named.slotSets i _ (List.getElem?_eq_getElem less)
      exact ⟨number, numbers, there⟩
  have params_buffer : ∀ rid ∈ if cache.params = 0 then [] else [cache.params],
      IsBuffer server rid := by
    intro rid member
    split at member
    next => cases member
    next some_params => exact List.mem_singleton.mp member ▸ named.params some_params
  have after_buffers (front : List Rid) {behind : List Rid}
      (are_buffers : ∀ rid ∈ behind, IsBuffer server rid) :
      ∀ earlier ∈ front, ∀ later ∈ behind, ¬ server.Depends Object.deps later earlier :=
    fun _ _ later member => (are_buffers later member).not_depends
  have among_buffers {rids : List Rid} (are_buffers : ∀ rid ∈ rids, IsBuffer server rid) :
      rids.Pairwise fun earlier later => ¬ server.Depends Object.deps later earlier :=
    List.pairwise_of_forall_mem_list fun earlier member =>
      after_buffers rids are_buffers earlier member
  have ubos : ∀ rid ∈ cache.slotUbos, IsBuffer server rid := fun rid => named.ubo_buffer
  have sets : (cache.set0.map Prod.snd ++ cache.slotSets).Pairwise
      fun earlier later => ¬ server.Depends Object.deps later earlier :=
    List.pairwise_of_forall_mem_list fun earlier member later _ =>
      have ⟨_, _, there⟩ := is_set earlier member
      coherent.not_needs_set there
  refine List.pairwise_append.mpr ⟨List.pairwise_append.mpr ⟨List.pairwise_append.mpr
    ⟨List.pairwise_append.mpr ⟨sets, among_buffers ubos, after_buffers _ ubos⟩,
      among_buffers params_buffer, after_buffers _ params_buffer⟩, coherent.kerns_ordered, ?_⟩,
    among_buffers named.tensors, after_buffers _ named.tensors⟩
  intro earlier member later of_kern depends
  obtain ⟨entry, cached, of_entry⟩ := List.mem_flatMap.mp of_kern
  obtain ⟨-, rfl⟩ := coherent.kern_needs cached of_entry depends
  obtain ⟨-, -, is_shader, -⟩ := named.kerns entry cached
  have not_buffer : ¬ IsBuffer server entry.2.shader := by
    rintro ⟨bytes, words, there⟩
    cases there.symm.trans is_shader
  rcases List.mem_append.mp member with member | params
  · rcases List.mem_append.mp member with set | ubo
    · obtain ⟨number, numbers, there⟩ := is_set _ set
      cases there.symm.trans is_shader
    · exact not_buffer (ubos _ ubo)
  · exact not_buffer (params_buffer _ params)

end Coherent

end DressOn.Ggml.UniformSets
