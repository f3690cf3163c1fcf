import DressOn.Host.SkeletonChains
import DressOn.Lib.Checked

/-!
# The slots of a rig

`adapt` answers without a read out of range for every rig, and its slots are joints of the rig. By
names they are different joints. By topology they are just where the ends of the chains are apart,
since chains that meet inside are one chain: nothing in `_by_topology` checks it.
-/

namespace DressOn.Host.Skeleton15

open DressOn.Guarded DressOn.Trails

/-- The ends of a body's chains are apart: pelvis, chest, the ends of the chains from the chest and
the third joints of the legs are seven joints, and the legs are no loop of three or four joints. -/
structure Body.Apart (body : Body) : Prop where
  ends : [body.pelvis, body.chest, body.head.getLastD 0, body.leftArm.getLastD 0,
    body.rightArm.getLastD 0, body.leftLeg.getD 2 0, body.rightLeg.getD 2 0].Nodup
  leftAnkle : body.leftLeg.getD 2 0 ∉ body.rightLeg.take 2
  rightAnkle : body.rightLeg.getD 2 0 ∉ body.leftLeg.take 2

section Slots

variable {n : Nat} {adj : List (List Nat)} {ends : List (Nat × Nat)} {body : Body}

namespace Along

variable {start : Nat} {joints : List Nat} {x : ℕ → ℕ} {m : ℕ}

theorem getLastD_eq (along : Along n adj start joints x m) : joints.getLastD 0 = x (m + 1) := by
  rw [along.joints_eq, List.range_succ, List.map_append, List.map_singleton, List.getLastD_concat]

theorem getD_eq (along : Along n adj start joints x m) {t : ℕ} (inside : t ≤ m) :
    joints.getD t 0 = x (t + 1) := by
  rw [List.getD_eq_getElem?_getD, along.getElem?_eq inside, Option.getD_some]

theorem take_two (along : Along n adj start joints x m) (long : 2 ≤ m) :
    joints.take 2 = [x 1, x 2] := by
  obtain ⟨k, rfl⟩ : ∃ k, m = k + 2 := ⟨m - 2, by omega⟩
  rw [along.joints_eq, ← List.map_take, List.take_range]
  rw [show min 2 (k + 2 + 1) = 2 by omega]
  rfl

end Along

/-- A body with the trails of its chains. -/
structure Traced (n : Nat) (adj : List (List Nat)) (body : Body) where
  pelvis : body.pelvis < n
  chest : body.chest < n
  pelvis_branch : (nbrs adj body.pelvis).length ≠ 2
  chest_branch : (nbrs adj body.chest).length ≠ 2
  differ : body.pelvis ≠ body.chest
  (h a b l r : ℕ → ℕ)
  (mh ma mb ml mr : ℕ)
  head : Along n adj body.chest body.head h mh
  leftArm : Along n adj body.chest body.leftArm a (ma + 2)
  rightArm : Along n adj body.chest body.rightArm b (mb + 2)
  leftLeg : Along n adj body.pelvis body.leftLeg l (ml + 2)
  rightLeg : Along n adj body.pelvis body.rightLeg r (mr + 2)
  arms : a 1 ≠ b 1
  legs : l 1 ≠ r 1

theorem Formed.exists_traced (formed : Formed n adj body) : Nonempty (Traced n adj body) := by
  obtain ⟨h, mh, head⟩ := formed.head
  obtain ⟨a, ma, b, mb, leftArm, rightArm, long, long', arms⟩ := formed.arms
  obtain ⟨l, ml, r, mr, leftLeg, rightLeg, long'', long''', legs⟩ := formed.legs
  obtain ⟨ma, rfl⟩ : ∃ k, ma = k + 2 := ⟨ma - 2, by omega⟩
  obtain ⟨mb, rfl⟩ : ∃ k, mb = k + 2 := ⟨mb - 2, by omega⟩
  obtain ⟨ml, rfl⟩ : ∃ k, ml = k + 2 := ⟨ml - 2, by omega⟩
  obtain ⟨mr, rfl⟩ : ∃ k, mr = k + 2 := ⟨mr - 2, by omega⟩
  exact ⟨⟨formed.pelvis, formed.chest, formed.pelvis_branch, formed.chest_branch, formed.differ,
    h, a, b, l, r, mh, ma, mb, ml, mr, head, leftArm, rightArm, leftLeg, rightLeg, arms, legs⟩⟩

namespace Traced

variable (traced : Traced n adj body)

/-- The slots, joint by joint of the trails. -/
def joints : List Nat :=
  [body.pelvis, body.chest, traced.h (traced.mh + 1),
    traced.a (traced.ma + 1), traced.a (traced.ma + 2), traced.a (traced.ma + 3),
    traced.b (traced.mb + 1), traced.b (traced.mb + 3), traced.b (traced.mb + 2),
    traced.l 1, traced.l 2, traced.l 3, traced.r 1, traced.r 2, traced.r 3]

theorem slots_eq : body.slots = .ok traced.joints := by
  rw [Body.slots, traced.head.readBack_eq (Nat.zero_le _), traced.leftArm.readBack_eq (by omega),
    traced.leftArm.readBack_eq (by omega), traced.leftArm.readBack_eq (Nat.zero_le _),
    traced.rightArm.readBack_eq (by omega), traced.rightArm.readBack_eq (by omega),
    traced.rightArm.readBack_eq (Nat.zero_le _), traced.leftLeg.read_eq (by omega),
    traced.leftLeg.read_eq (by omega), traced.leftLeg.read_eq (by omega),
    traced.rightLeg.read_eq (by omega), traced.rightLeg.read_eq (by omega),
    traced.rightLeg.read_eq (by omega)]
  rfl

/-- The slots are joints of the rig. -/
theorem joints_lt : ∀ i ∈ traced.joints, i < n := by
  simp only [joints, List.forall_mem_cons, List.not_mem_nil, false_implies, implies_true, and_true]
  exact ⟨traced.pelvis, traced.chest, traced.head.inside _ le_rfl,
    traced.leftArm.inside _ (by omega), traced.leftArm.inside _ (by omega),
    traced.leftArm.inside _ le_rfl, traced.rightArm.inside _ (by omega),
    traced.rightArm.inside _ le_rfl, traced.rightArm.inside _ (by omega),
    traced.leftLeg.inside _ (by omega), traced.leftLeg.inside _ (by omega),
    traced.leftLeg.inside _ (by omega), traced.rightLeg.inside _ (by omega),
    traced.rightLeg.inside _ (by omega), traced.rightLeg.inside _ (by omega)⟩

/-- The ends of the chains, as joints of the trails. -/
theorem apart_iff : body.Apart ↔
    [body.pelvis, body.chest, traced.h (traced.mh + 1), traced.a (traced.ma + 3),
      traced.b (traced.mb + 3), traced.l 3, traced.r 3].Nodup ∧
    traced.l 3 ∉ [traced.r 1, traced.r 2] ∧ traced.r 3 ∉ [traced.l 1, traced.l 2] := by
  rw [← traced.head.getLastD_eq, ← traced.leftArm.getLastD_eq, ← traced.rightArm.getLastD_eq,
    ← traced.leftLeg.getD_eq (show 2 ≤ traced.ml + 2 by omega),
    ← traced.rightLeg.getD_eq (show 2 ≤ traced.mr + 2 by omega),
    ← traced.leftLeg.take_two (by omega), ← traced.rightLeg.take_two (by omega)]
  exact ⟨fun apart => ⟨apart.ends, apart.leftAnkle, apart.rightAnkle⟩, fun ⟨ends, left, right⟩ =>
    ⟨ends, left, right⟩⟩

end Traced

namespace Along

variable {start start' : Nat} {joints joints' : List Nat} {x y : ℕ → ℕ} {m m' : ℕ}

/-- Joints of a chain are different joints. -/
theorem ne (along : Along n adj start joints x m) (linked : Linked n adj ends) {s t : ℕ}
    (less : s < t) (inside : t ≤ m) : x (s + 1) ≠ x (t + 1) := by
  rcases Nat.lt_or_eq_of_le inside with inside | rfl
  · exact along.ended.ne_of_lt linked.undirected less inside
  · exact fun same => along.ended.stop (same ▸ along.ended.length_inside less)

theorem inj (along : Along n adj start joints x m) (linked : Linked n adj ends) {s t : ℕ}
    (inside : s ≤ m) (inside' : t ≤ m) (same : x (s + 1) = x (t + 1)) : s = t := by
  rcases Nat.lt_trichotomy s t with less | equal | greater
  · exact absurd same (along.ne linked less inside')
  · exact equal
  · exact absurd same.symm (along.ne linked greater inside)

/-- A joint of two bones is no end of a chain. -/
theorem inside_ne_end (along : Along n adj start joints x m)
    (along' : Along n adj start' joints' y m') {i : ℕ} (inside : i < m) :
    x (i + 1) ≠ y (m' + 1) := fun same =>
  along'.ended.stop (same ▸ along.ended.length_inside inside)

/-- Chains from two joints meet inside only where one of them ends at the start of the other. -/
theorem inside_ne_inside (along : Along n adj start joints x m)
    (along' : Along n adj start' joints' y m') (differ : start ≠ start')
    (away : x (m + 1) ≠ start') {i j : ℕ} (inside : i < m) (inside' : j < m') :
    x (i + 1) ≠ y (j + 1) := by
  intro shared
  obtain ⟨-, same | reversed⟩ := along.ended.same_or_reverse along'.ended inside inside' shared
  · exact differ (along.start_eq.symm.trans ((same 0 (by omega)).trans along'.start_eq))
  · have last := reversed (m + 1) le_rfl
    rw [Nat.sub_self, along'.start_eq] at last
    exact away last

/-- Chains from one joint by different neighbours meet inside only where they are one loop. -/
theorem loop_of_inside (along : Along n adj start joints x m)
    (along' : Along n adj start joints' y m') (differ : x 1 ≠ y 1) {i j : ℕ} (inside : i < m)
    (inside' : j < m') (shared : x (i + 1) = y (j + 1)) :
    m = m' ∧ ∀ t ≤ m + 1, x t = y (m + 1 - t) := by
  obtain ⟨length, same | reversed⟩ := along.ended.same_or_reverse along'.ended inside inside' shared
  · exact absurd (same 1 (by omega)) differ
  · exact ⟨length, reversed⟩

end Along

namespace Traced

variable (traced : Traced n adj body)

/-- The ends of the chains from the chest, and its two trunk joints. -/
def trunk : List Nat :=
  [body.pelvis, body.chest, traced.h (traced.mh + 1), traced.a (traced.ma + 3),
    traced.b (traced.mb + 3)]

/-- The joints of the arms above the wrists. -/
def upperArms : List Nat :=
  [traced.a (traced.ma + 1), traced.a (traced.ma + 2), traced.b (traced.mb + 1),
    traced.b (traced.mb + 2)]

/-- The joints of the legs above the ankles. -/
def upperLegs : List Nat := [traced.l 1, traced.l 2, traced.r 1, traced.r 2]

/-- The ankles. -/
def ankles : List Nat := [traced.l 3, traced.r 3]

/-- The slots in the order of the proof. -/
theorem joints_perm : traced.joints.Perm
    (traced.trunk ++ (traced.upperArms ++ (traced.upperLegs ++ traced.ankles))) := by
  have order : [0, 1, 2, 5, 6, 3, 7, 4, 8, 9, 10, 13, 11, 12, 14].Perm (List.range 15) := by decide
  exact order.map fun i =>
    (traced.trunk ++ (traced.upperArms ++ (traced.upperLegs ++ traced.ankles))).getD i 0

variable {traced}

/-- The upper arms are different joints unless an arm ends at the chest. -/
theorem upperArms_nodup (linked : Linked n adj ends)
    (away : traced.a (traced.ma + 3) ≠ body.chest) : traced.upperArms.Nodup := by
  have apart : ∀ i < traced.ma + 2, ∀ j < traced.mb + 2, traced.a (i + 1) ≠ traced.b (j + 1) := by
    intro i inside j inside' shared
    obtain ⟨-, reversed⟩ := traced.leftArm.loop_of_inside traced.rightArm traced.arms inside inside'
      shared
    have last := reversed (traced.ma + 3) le_rfl
    rw [Nat.sub_self, traced.rightArm.start_eq] at last
    exact away last
  have left := traced.leftArm.ne linked (Nat.lt_succ_self traced.ma) (by omega)
  have right := traced.rightArm.ne linked (Nat.lt_succ_self traced.mb) (by omega)
  have := apart traced.ma (by omega) traced.mb (by omega)
  have := apart traced.ma (by omega) (traced.mb + 1) (by omega)
  have := apart (traced.ma + 1) (by omega) traced.mb (by omega)
  have := apart (traced.ma + 1) (by omega) (traced.mb + 1) (by omega)
  simp_all [upperArms]

/-- The upper legs are different joints unless the legs are a loop of up to four joints. -/
theorem upperLegs_nodup (linked : Linked n adj ends) (away : traced.l 3 ≠ body.pelvis)
    (open_ : traced.l 3 ∉ [traced.r 1, traced.r 2]) : traced.upperLegs.Nodup := by
  have apart : ∀ i < 2, ∀ j < 2, traced.l (i + 1) ≠ traced.r (j + 1) := by
    intro i inside j inside' shared
    obtain ⟨length, reversed⟩ := traced.leftLeg.loop_of_inside traced.rightLeg traced.legs
      (show i < traced.ml + 2 by omega) (show j < traced.mr + 2 by omega) shared
    have mirrored : traced.r (traced.ml + 1 - i + 1) = traced.r (j + 1) := by
      rw [← shared, reversed (i + 1) (by omega)]
      exact congrArg traced.r (by omega)
    have index := traced.rightLeg.inj linked (by omega) (by omega) mirrored
    have third := reversed 3 (by omega)
    obtain loop | loop : traced.ml = 0 ∨ traced.ml = 1 := by omega
    · rw [loop, Nat.sub_self, traced.rightLeg.start_eq] at third
      exact away third
    · rw [loop] at third
      exact open_ (third ▸ List.mem_cons_self)
  have left := traced.leftLeg.ne linked (show 0 < 1 by decide) (by omega)
  have right := traced.rightLeg.ne linked (show 0 < 1 by decide) (by omega)
  have := apart 0 (by decide) 0 (by decide)
  have := apart 0 (by decide) 1 (by decide)
  have := apart 1 (by decide) 0 (by decide)
  have := apart 1 (by decide) 1 (by decide)
  simp_all [upperLegs]

/-- A joint of an upper arm is inside its chain. -/
theorem of_mem_upperArms {i : Nat} (member : i ∈ traced.upperArms) :
    (∃ s < traced.ma + 2, i = traced.a (s + 1)) ∨ ∃ s < traced.mb + 2, i = traced.b (s + 1) := by
  simp only [upperArms, List.mem_cons, List.not_mem_nil, or_false] at member
  rcases member with rfl | rfl | rfl | rfl
  · exact .inl ⟨traced.ma, by omega, rfl⟩
  · exact .inl ⟨traced.ma + 1, by omega, rfl⟩
  · exact .inr ⟨traced.mb, by omega, rfl⟩
  · exact .inr ⟨traced.mb + 1, by omega, rfl⟩

/-- A joint of an upper leg is inside its chain. -/
theorem of_mem_upperLegs {i : Nat} (member : i ∈ traced.upperLegs) :
    (∃ t < 2, i = traced.l (t + 1)) ∨ ∃ t < 2, i = traced.r (t + 1) := by
  simp only [upperLegs, List.mem_cons, List.not_mem_nil, or_false] at member
  rcases member with rfl | rfl | rfl | rfl
  · exact .inl ⟨0, by decide, rfl⟩
  · exact .inl ⟨1, by decide, rfl⟩
  · exact .inr ⟨0, by decide, rfl⟩
  · exact .inr ⟨1, by decide, rfl⟩

/-- An arm that does not end at the pelvis meets no leg above its wrist. -/
theorem arm_ne_leg (differ : body.pelvis ≠ body.chest) {arm leg : List Nat} {x y : ℕ → ℕ}
    {m k : ℕ} (along : Along n adj body.chest arm x m) (along' : Along n adj body.pelvis leg y k)
    (long : 2 ≤ k) (away : x (m + 1) ≠ body.pelvis) {s t : ℕ} (inside : s < m) (inside' : t ≤ 2) :
    x (s + 1) ≠ y (t + 1) := by
  rcases Nat.lt_or_eq_of_le (inside'.trans long) with less | rfl
  · exact along.inside_ne_inside along' differ.symm away inside less
  · exact along.inside_ne_end along' inside

/-- Where the ends are apart, the slots are different joints. -/
theorem nodup_of_apart (linked : Linked n adj ends) (apart : body.Apart) :
    traced.joints.Nodup := by
  obtain ⟨ends_apart, leftAnkle, rightAnkle⟩ := traced.apart_iff.mp apart
  obtain ⟨trunk_apart, ankles_apart, trunk_ankles⟩ : traced.trunk.Nodup ∧ traced.ankles.Nodup ∧
      ∀ i ∈ traced.trunk, ∀ j ∈ traced.ankles, i ≠ j := List.nodup_append.mp ends_apart
  obtain ⟨⟨-, -, pelvis_a, pelvis_b⟩, ⟨-, chest_a, -⟩, -⟩ :
      (body.pelvis ≠ body.chest ∧ body.pelvis ≠ traced.h (traced.mh + 1) ∧
        body.pelvis ≠ traced.a (traced.ma + 3) ∧ body.pelvis ≠ traced.b (traced.mb + 3)) ∧
      (body.chest ≠ traced.h (traced.mh + 1) ∧ body.chest ≠ traced.a (traced.ma + 3) ∧
        body.chest ≠ traced.b (traced.mb + 3)) ∧ _ := by
    simpa [trunk] using trunk_apart
  have not_two : ∀ i ∈ traced.trunk, (nbrs adj i).length ≠ 2 := by
    simp only [trunk, List.forall_mem_cons, List.not_mem_nil, false_implies, implies_true, and_true]
    exact ⟨traced.pelvis_branch, traced.chest_branch, traced.head.ended.stop,
      traced.leftArm.ended.stop, traced.rightArm.ended.stop⟩
  have two_arm : ∀ i ∈ traced.upperArms, (nbrs adj i).length = 2 := by
    intro i member
    rcases of_mem_upperArms member with ⟨s, inside, rfl⟩ | ⟨s, inside, rfl⟩
    · exact traced.leftArm.ended.length_inside inside
    · exact traced.rightArm.ended.length_inside inside
  have two_leg : ∀ i ∈ traced.upperLegs, (nbrs adj i).length = 2 := by
    intro i member
    rcases of_mem_upperLegs member with ⟨t, inside, rfl⟩ | ⟨t, inside, rfl⟩
    · exact traced.leftLeg.ended.length_inside (by omega)
    · exact traced.rightLeg.ended.length_inside (by omega)
  have arm_leg : ∀ {leg y k}, Along n adj body.pelvis leg y k → 2 ≤ k → ∀ i ∈ traced.upperArms,
      ∀ t ≤ 2, i ≠ y (t + 1) := by
    intro leg y k along' long i member t inside'
    rcases of_mem_upperArms member with ⟨s, inside, rfl⟩ | ⟨s, inside, rfl⟩
    · exact arm_ne_leg traced.differ traced.leftArm along' long pelvis_a.symm inside inside'
    · exact arm_ne_leg traced.differ traced.rightArm along' long pelvis_b.symm inside inside'
  have arms_legs : ∀ i ∈ traced.upperArms, ∀ j ∈ traced.upperLegs, i ≠ j := by
    intro i member j member'
    rcases of_mem_upperLegs member' with ⟨t, inside, rfl⟩ | ⟨t, inside, rfl⟩
    · exact arm_leg traced.leftLeg (by omega) i member t inside.le
    · exact arm_leg traced.rightLeg (by omega) i member t inside.le
  have arms_ankles : ∀ i ∈ traced.upperArms, ∀ j ∈ traced.ankles, i ≠ j := by
    intro i member j member'
    rcases List.mem_pair.mp member' with rfl | rfl
    · exact arm_leg traced.leftLeg (by omega) i member 2 le_rfl
    · exact arm_leg traced.rightLeg (by omega) i member 2 le_rfl
  have legs_ankles : ∀ i ∈ traced.upperLegs, ∀ j ∈ traced.ankles, i ≠ j := by
    have left := fun t (less : t < 2) => traced.leftLeg.ne linked less (by omega)
    have right := fun t (less : t < 2) => traced.rightLeg.ne linked less (by omega)
    simp only [List.mem_cons, List.not_mem_nil, or_false, not_or] at leftAnkle rightAnkle
    simp only [upperLegs, ankles, List.forall_mem_cons, List.not_mem_nil, false_implies,
      implies_true, and_true]
    exact ⟨⟨left 0 (by decide), Ne.symm rightAnkle.1⟩, ⟨left 1 (by decide), Ne.symm rightAnkle.2⟩,
      ⟨Ne.symm leftAnkle.1, right 0 (by decide)⟩, Ne.symm leftAnkle.2, right 1 (by decide)⟩
  have arms_apart := upperArms_nodup linked chest_a.symm
  have legs_apart := upperLegs_nodup linked
    (trunk_ankles _ List.mem_cons_self _ List.mem_cons_self).symm leftAnkle
  rw [traced.joints_perm.nodup_iff, List.nodup_append, List.nodup_append, List.nodup_append]
  refine ⟨trunk_apart, ⟨arms_apart, ⟨legs_apart, ankles_apart, legs_ankles⟩, ?_⟩, ?_⟩
  · intro i here j there
    rcases List.mem_append.mp there with there | there
    · exact arms_legs i here j there
    · exact arms_ankles i here j there
  · intro i here j there
    rcases List.mem_append.mp there with there | there
    · exact fun same => not_two i here (same ▸ two_arm j there)
    · rcases List.mem_append.mp there with there | there
      · exact fun same => not_two i here (same ▸ two_leg j there)
      · exact trunk_ankles i here j there

/-- Where the slots are different joints, the ends are apart. -/
theorem apart_of_nodup (nodup : traced.joints.Nodup) : body.Apart := by
  rw [traced.joints_perm.nodup_iff] at nodup
  have legs_last : (traced.upperLegs ++ traced.ankles).Sublist
      (traced.upperArms ++ (traced.upperLegs ++ traced.ankles)) := List.sublist_append_right _ _
  have ends_apart : (traced.trunk ++ traced.ankles).Nodup :=
    nodup.sublist (((List.sublist_append_right _ _).trans legs_last).append_left _)
  obtain ⟨-, -, legs_ankles⟩ := List.nodup_append.mp
    (nodup.sublist (legs_last.trans (List.sublist_append_right _ _)))
  refine traced.apart_iff.mpr ⟨ends_apart, fun member => ?_, fun member => ?_⟩
  · exact legs_ankles (traced.l 3) (List.mem_append_right [traced.l 1, traced.l 2] member)
      (traced.l 3) List.mem_cons_self rfl
  · exact legs_ankles (traced.r 3) (List.mem_append_left [traced.r 1, traced.r 2] member)
      (traced.r 3) (List.mem_cons_of_mem _ List.mem_cons_self) rfl

end Traced

end Slots

/-! ## Adapting -/

section Adapt

/-- Fifteen joints of a rig. -/
structure Slotted (n : Nat) (map : List Nat) : Prop where
  length : map.length = slotCount
  inside : ∀ i ∈ map, i < n

/-- The slots by names are different joints of the rig. -/
theorem byNames_spec {parts : List (Side × Texts.Text)} {map : List Nat}
    (named : byNames parts = some map) : Slotted parts.length map ∧ map.Nodup := by
  obtain ⟨joints, mapped, chosen⟩ := Option.bind_eq_some_iff.mp named
  split at chosen
  next nodup =>
    cases chosen
    refine ⟨⟨(Checked.forall₂_of_mapM mapped).length_eq.symm, ?_⟩, nodup⟩
    refine Checked.forall_of_mapM mapped fun slot _ i found_i => ?_
    obtain ⟨base, -, found_i⟩ := List.exists_of_findSome?_eq_some found_i
    exact (List.findIdx?_eq_some_iff_findIdx_eq.mp found_i).1
  next => cases chosen

variable {α : Type} (lower : Char → Char) (rig : Rig α)

theorem named_spec {map : List Nat} (named : rig.named lower = some map) :
    Slotted rig.positions.length map ∧ map.Nodup := by
  rw [Rig.named] at named
  split at named
  next same =>
    have spec := byNames_spec named
    rwa [List.length_map, same.1] at spec
  next => cases named

variable [LT α] [DecidableLT α] [Zero α] [Add α] [Div α] [NatCast α]

/-- Where every slot has a name, the map goes by the names. -/
theorem adapt_of_named {map : List Nat} (named : rig.named lower = some map) :
    ∃ joints, adapt lower rig = .ok ⟨joints, layoutBones, map, .names⟩ := by
  obtain ⟨points, points_eq⟩ := exists_mapM_read (named_spec lower rig named).1.inside
  refine ⟨points.flatMap fun p => [p.x, p.y, p.z], ?_⟩
  rw [adapt, Rig.mapped, named]
  change (map.mapM (read rig.positions) >>= _) = _
  rw [points_eq]
  rfl

/-- Else a body gives the map: joints of the rig, and different ones just where its ends are
apart. -/
theorem adapt_of_anatomy (unnamed : rig.named lower = none) {body : Body}
    (body_eq : anatomy rig.positions rig.bones = .ok body) :
    ∃ joints map, adapt lower rig = .ok ⟨joints, layoutBones, map, .topology⟩ ∧
      Slotted rig.positions.length map ∧ (map.Nodup ↔ body.Apart) := by
  obtain ⟨adj, ends, linked, formed⟩ := (safe_anatomy rig.positions rig.bones).of_eq body_eq
  obtain ⟨traced⟩ := formed.exists_traced
  obtain ⟨points, points_eq⟩ := exists_mapM_read traced.joints_lt
  refine ⟨points.flatMap fun p => [p.x, p.y, p.z], traced.joints, ?_, ⟨rfl, traced.joints_lt⟩,
    Traced.apart_of_nodup, Traced.nodup_of_apart linked⟩
  have slots_eq : byTopology rig.positions rig.bones = .ok traced.joints := by
    rw [byTopology, body_eq]
    exact traced.slots_eq
  rw [adapt, Rig.mapped, unnamed, slots_eq]
  change (traced.joints.mapM (read rig.positions) >>= _) = _
  rw [points_eq]
  rfl

/-- And a refusal of the bone graph is one of the rig. -/
theorem adapt_of_refused (unnamed : rig.named lower = none) {failure : Failure String}
    (refused : anatomy rig.positions rig.bones = .error failure) :
    adapt lower rig = .error failure := by
  rw [adapt, Rig.mapped, unnamed, byTopology, refused]
  rfl

/-- No read is out of range, and the slots of an answer are fifteen different joints. -/
def IsRigged : Prop :=
  Safe (adapt lower rig) fun answer =>
    Slotted rig.positions.length answer.map ∧ answer.map.Nodup

/-- `adapt` ends for every rig without a read out of range, with joints of the rig. They are
fifteen different joints just where every slot has a name, or where the ends of the body that the
bone graph shows are apart. -/
theorem adapt_isRigged_iff :
    Safe (adapt lower rig) (fun answer => Slotted rig.positions.length answer.map) ∧
      (IsRigged lower rig ↔ rig.named lower ≠ none ∨
        ∀ body, anatomy rig.positions rig.bones = .ok body → body.Apart) := by
  rw [IsRigged]
  cases named : rig.named lower with
  | some map =>
    obtain ⟨slotted, nodup⟩ := named_spec lower rig named
    obtain ⟨joints, answered⟩ := adapt_of_named lower rig named
    rw [answered]
    exact ⟨slotted, fun _ => .inl nofun, fun _ => ⟨slotted, nodup⟩⟩
  | none =>
    have safe := safe_anatomy rig.positions rig.bones
    cases body_eq : anatomy rig.positions rig.bones with
    | ok body =>
      obtain ⟨joints, map, answered, slotted, nodup_iff⟩ := adapt_of_anatomy lower rig named body_eq
      rw [answered]
      refine ⟨slotted, fun rigged => .inr fun other same => ?_, fun apart => ⟨slotted, ?_⟩⟩
      · cases same
        exact nodup_iff.mp rigged.2
      · exact nodup_iff.mpr (apart.resolve_left (not_not_intro rfl) body rfl)
    | error failure =>
      rw [adapt_of_refused lower rig named body_eq]
      rw [body_eq] at safe
      cases failure with
      | fault => exact safe.elim
      | refused => exact ⟨trivial, fun _ => .inr nofun, fun _ => trivial⟩

/-- Both hands hold one joint, from which a third bone hangs. -/
def holding : Rig Int where
  positions := [0, 9, 20, 8, 7, 6, 8, 7, 5, -1, -2, -3, -1, -2, -3].map fun y => ⟨0, y, 0⟩
  bones := [0, 1, 1, 2, 1, 3, 3, 4, 4, 5, 1, 6, 6, 7, 7, 5, 5, 8, 0, 9, 9, 10, 10, 11, 0, 12,
    12, 13, 13, 14]
  names := []

/-- Both wrists are the joint that the hands hold. -/
theorem holding_not_rigged : ¬ IsRigged id holding := by
  have answered : (adapt id holding).toOption.map Answer.map =
      some [0, 1, 2, 3, 4, 5, 6, 5, 7, 9, 10, 11, 12, 13, 14] := by decide +kernel
  intro rigged
  rw [IsRigged] at rigged
  cases adapted : adapt id holding with
  | error failure =>
    rw [adapted] at answered
    cases answered
  | ok answer =>
    rw [adapted] at answered rigged
    have map_eq := Option.some.inj answered
    have nodup : answer.map.Nodup := rigged.2
    rw [map_eq] at nodup
    exact absurd nodup (by decide)

end Adapt

end DressOn.Host.Skeleton15
