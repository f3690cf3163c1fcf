import DressOn.Lib.ClosedWalks
import DressOn.Lib.Successions

/-!
# Rounds

Loops up to where they begin and the direction. Two loops through the same vertices are the same
round if one only goes between neighbours of the other, and two families of loops without common
vertices are the same if each loop of one is a loop of the other.
-/

namespace DressOn.Rounds

open ClosedWalks Successions

variable {V : Type*}

/-- The same loop, wherever it begins, in either direction. -/
def SameRound (one two : List V) : Prop := one.IsRotated two ∨ one.IsRotated two.reverse

theorem SameRound.perm {one two : List V} (same : SameRound one two) : one.Perm two :=
  same.elim List.IsRotated.perm fun turned => turned.perm.trans two.reverse_perm

/-! ## The edges of a loop -/

section Edges

/-- A loop goes to the next vertex, and from the last to the first. -/
theorem closing_eq (loop : List V) : closing loop = loop.zip (loop.rotate 1) := by
  cases loop with
  | nil => rfl
  | cons start rest =>
      rw [List.rotate_cons_succ, List.rotate_zero]
      rfl

theorem map_fst_closing (loop : List V) : (closing loop).map Prod.fst = loop := by
  rw [closing_eq]
  exact List.map_fst_zip (by rw [List.length_rotate])

theorem map_snd_closing (loop : List V) : (closing loop).map Prod.snd = loop.rotate 1 := by
  rw [closing_eq]
  exact List.map_snd_zip (by rw [List.length_rotate])

/-- Where no vertex occurs twice, each has one next and one before. -/
theorem linear_closing {loop : List V} (distinct : loop.Nodup) :
    Linear fun a b => (a, b) ∈ closing loop where
  next := by
    intro a b c first second
    have once : ((closing loop).map Prod.fst).Nodup := by rwa [map_fst_closing]
    exact congrArg Prod.snd (List.inj_on_of_nodup_map once first second rfl)
  back := by
    intro a b c first second
    have once : ((closing loop).map Prod.snd).Nodup := by
      rw [map_snd_closing]
      exact List.nodup_rotate.mpr distinct
    exact congrArg Prod.fst (List.inj_on_of_nodup_map once first second rfl)

theorem mem_closing_rotate (loop : List V) (k : ℕ) (edge : V × V) :
    edge ∈ closing (loop.rotate k) ↔ edge ∈ closing loop := by
  have turned : closing (loop.rotate k) = (closing loop).rotate k := by
    rw [closing_eq, closing_eq, List.rotate_rotate, Nat.add_comm, ← List.rotate_rotate]
    exact (List.zipWith_rotate_distrib Prod.mk loop (loop.rotate 1) k (by simp)).symm
  rw [turned, List.mem_rotate]

/-- A loop walks along its edges. -/
theorem isChain_closing (loop : List V) : loop.IsChain fun a b => (a, b) ∈ closing loop := by
  refine List.isChain_iff_getElem.mpr fun i inside => ?_
  rw [closing_eq]
  refine List.mem_iff_getElem.mpr ⟨i, by simp; omega, ?_⟩
  simp only [List.getElem_zip, List.getElem_rotate, Nat.mod_eq_of_lt inside]

/-- A walk through all vertices of a loop, between neighbours, is the same round. -/
theorem sameRound_of_beside {loop walk : List V} (distinct : loop.Nodup) (perm : loop.Perm walk)
    (chain : walk.IsChain (Beside fun a b => (a, b) ∈ closing loop)) : SameRound loop walk := by
  have along {other : List V} (perm : loop.Perm other)
      (chain : other.IsChain fun a b => (a, b) ∈ closing loop) : loop.IsRotated other := by
    cases other with
    | nil => rw [perm.eq_nil]
    | cons a rest =>
        obtain ⟨k, inside, here⟩ := List.mem_iff_getElem.mp (perm.mem_iff.mpr List.mem_cons_self)
        have turned : loop.rotate k = a :: (loop.drop (k + 1) ++ loop.take k) := by
          rw [List.rotate_eq_drop_append_take inside.le, List.drop_eq_getElem_cons inside, here]
          rfl
        have round : (a :: (loop.drop (k + 1) ++ loop.take k)).IsChain
            fun a b => (a, b) ∈ closing loop := by
          rw [← turned]
          exact (isChain_closing _).imp fun _ _ => (mem_closing_rotate loop k _).mp
        refine ⟨k, turned.trans (congrArg (a :: ·) ?_)⟩
        refine chain_unique (linear_closing distinct) round chain ?_
        have lengths := (congrArg List.length turned).symm.trans (List.length_rotate loop k)
        have perms := perm.length_eq
        simp only [List.length_cons] at lengths perms
        omega
  have distinct' := perm.nodup_iff.mp distinct
  rcases along_or_against (linear_closing distinct) distinct' chain with forth | back
  · exact .inl (along perm forth)
  · refine .inr (along (perm.trans walk.reverse_perm.symm) ?_)
    exact List.isChain_reverse.mpr back

end Edges

/-! ## Whole loops -/

section Whole

variable {E : V → V → Prop}

/-- A loop that walks through all that hangs together with it. -/
structure Whole (E : V → V → Prop) (loop : List V) : Prop where
  some_ : loop ≠ []
  distinct : loop.Nodup
  walk : loop.IsChain (Beside E)
  closed : ∀ {a b}, a ∈ loop → Beside E a b → b ∈ loop

/-- What holds at one vertex of a walk, and does not change along an edge, holds at all. -/
theorem forall_of_walk {fact : V → Prop} {walk : List V} (chain : walk.IsChain (Beside E))
    (steps : ∀ {a b}, Beside E a b → (fact a ↔ fact b)) {a : V} (inside : a ∈ walk)
    (holds : fact a) : ∀ b ∈ walk, fact b := by
  have alike : ∀ b ∈ walk, ∀ c ∈ walk, fact b → fact c := by
    clear inside holds
    induction walk with
    | nil => exact nofun
    | cons d rest ih =>
        have later := ih chain.tail
        have first : ∀ b ∈ rest, fact d ↔ fact b := by
          intro b among
          obtain ⟨e, others, rfl⟩ := List.exists_cons_of_ne_nil (List.ne_nil_of_mem among)
          have step := steps (List.isChain_cons_cons.mp chain).1
          exact step.trans ⟨later e List.mem_cons_self b among, later b among e List.mem_cons_self⟩
        intro b among c among' holds
        have start : fact d := by
          rcases List.mem_cons.mp among with rfl | inside
          · exact holds
          · exact (first b inside).mpr holds
        rcases List.mem_cons.mp among' with rfl | inside
        · exact start
        · exact (first c inside).mp start
  exact fun b among => alike a inside b among holds

/-- An edge between vertices of a loop that walks along the edges is one of the loop's. -/
theorem mem_closing_of_edge (linear : Linear E) {loop : List V} (distinct : loop.Nodup)
    (chain : loop.IsChain E) {a b : V} (insideA : a ∈ loop) (insideB : b ∈ loop) (edge : E a b) :
    (a, b) ∈ closing loop := by
  obtain ⟨front, back, cut⟩ := List.append_of_mem insideB
  rcases List.eq_nil_or_concat front with rfl | ⟨front, p, rfl⟩
  · -- the first vertex: its edge comes from the last
    obtain ⟨lead, rest, cut'⟩ := List.append_of_mem insideA
    cases rest with
    | nil =>
        have closes : closing loop = steps lead a ++ [(a, b)] := by
          rw [← steps_snoc, ← cut', cut]
          rfl
        rw [closes]
        exact List.mem_append_right _ (List.mem_singleton_self _)
    | cons q rest =>
        rw [cut'] at chain
        have same := linear.next edge (List.isChain_append_cons_cons.mp chain).2.1
        subst same
        have once : b ∉ back := by
          rw [cut] at distinct
          exact (List.nodup_cons.mp distinct).1
        refine absurd ?_ once
        rw [cut] at cut'
        cases lead with
        | nil => exact (List.cons.inj cut').2 ▸ List.mem_cons_self
        | cons first lead => exact (List.cons.inj cut').2 ▸ by simp
  · have both := cut
    simp only [List.concat_eq_append, List.append_assoc, List.singleton_append] at both
    have previous := (List.isChain_append_cons_cons.mp (both ▸ chain)).2.1
    rw [linear.back edge previous]
    have round := isChain_closing loop
    generalize closing loop = edges at round ⊢
    rw [both] at round
    exact (List.isChain_append_cons_cons.mp round).2.1

/-- Two whole loops with a common vertex are the same round. -/
theorem Whole.sameRound (linear : Linear E) {one two : List V} (first : Whole E one)
    (second : Whole E two) {v : V} (inOne : v ∈ one) (inTwo : v ∈ two) : SameRound one two := by
  have perm : one.Perm two := by
    refine (List.perm_ext_iff_of_nodup first.distinct second.distinct).mpr fun a => ⟨?_, ?_⟩
    · exact fun inside => forall_of_walk first.walk
        (fun beside => ⟨fun here => second.closed here beside, fun here =>
          second.closed here beside.symm⟩) inOne inTwo a inside
    · exact fun inside => forall_of_walk second.walk
        (fun beside => ⟨fun here => first.closed here beside, fun here =>
          first.closed here beside.symm⟩) inTwo inOne a inside
  refine sameRound_of_beside first.distinct perm ?_
  refine second.walk.imp_of_mem_imp fun a b insideA insideB beside => ?_
  have insideA := perm.mem_iff.mpr insideA
  have insideB := perm.mem_iff.mpr insideB
  rcases along_or_against linear first.distinct first.walk with forth | back
  · exact beside.imp (mem_closing_of_edge linear first.distinct forth insideA insideB)
      (mem_closing_of_edge linear first.distinct forth insideB insideA)
  · exact (beside.imp (mem_closing_of_edge linear.flip first.distinct back insideB insideA)
      (mem_closing_of_edge linear.flip first.distinct back insideA insideB)).symm

end Whole

/-! ## Families of loops -/

section Families

/-- The same loops, in some order. -/
def SameRounds (one two : List (List V)) : Prop :=
  ∃ family, family.Perm two ∧ List.Forall₂ SameRound one family

/-- The same loops have the same vertices. -/
theorem SameRounds.perm {one two : List (List V)} (same : SameRounds one two) :
    one.flatten.Perm two.flatten := by
  obtain ⟨family, reordered, pairs⟩ := same
  refine List.Perm.trans ?_ reordered.flatten
  clear reordered
  induction pairs with
  | nil => exact .refl _
  | cons same _ ih => exact same.perm.append ih

/-- Each loop is one of the others. -/
theorem SameRounds.exists_of_mem {one two : List (List V)} (same : SameRounds one two)
    {loop : List V} (member : loop ∈ one) : ∃ other ∈ two, SameRound loop other := by
  obtain ⟨family, reordered, pairs⟩ := same
  obtain ⟨other, among, alike⟩ : ∃ other ∈ family, SameRound loop other := by
    clear reordered
    induction pairs with
    | nil => cases member
    | @cons first match_ _ _ same _ ih =>
        rcases List.mem_cons.mp member with rfl | later
        · exact ⟨match_, List.mem_cons_self, same⟩
        · obtain ⟨other, among, alike⟩ := ih later
          exact ⟨other, List.mem_cons_of_mem _ among, alike⟩
  exact ⟨other, reordered.mem_iff.mp among, alike⟩

variable [DecidableEq V]

/-- Families without common vertices have the same loops where each of one is one of the other. -/
theorem sameRounds_of_each {one two : List (List V)} (distinct : one.flatten.Nodup)
    (distinct' : two.flatten.Nodup) (some_ : [] ∉ two)
    (vertices : ∀ v ∈ two.flatten, v ∈ one.flatten)
    (each : ∀ loop ∈ one, loop ≠ [] ∧ ∃ other ∈ two, SameRound loop other) :
    SameRounds one two := by
  induction one generalizing two with
  | nil =>
      cases two with
      | nil => exact ⟨[], .refl _, .nil⟩
      | cons loop rest =>
          obtain ⟨v, inside⟩ := List.exists_mem_of_ne_nil loop fun none_ =>
            some_ (none_ ▸ List.mem_cons_self)
          exact absurd (vertices v (List.mem_append_left _ inside)) List.not_mem_nil
  | cons loop rest ih =>
      obtain ⟨_, other, member, same⟩ := each loop List.mem_cons_self
      have perm := List.perm_cons_erase member
      have flat : two.flatten.Perm (other ++ (two.erase other).flatten) := perm.flatten
      obtain ⟨_, distinctRest, apart⟩ :=
        List.nodup_append.mp (show (loop ++ rest.flatten).Nodup from distinct)
      obtain ⟨_, distinctRest', apart'⟩ := List.nodup_append.mp (flat.nodup_iff.mp distinct')
      have apartFrom {v : V} {next : List V} (inside : v ∈ next) (among : next ∈ rest) :
          v ∉ other := fun inOther =>
        apart v (same.perm.mem_iff.mpr inOther) v (List.mem_flatten.mpr ⟨next, among, inside⟩) rfl
      have vertices' : ∀ v ∈ (two.erase other).flatten, v ∈ rest.flatten := by
        intro v inside
        rcases List.mem_append.mp (vertices v (flat.mem_iff.mpr (List.mem_append_right _ inside)))
          with here | later
        · exact absurd rfl (apart' v (same.perm.mem_iff.mp here) v inside)
        · exact later
      have each' : ∀ next ∈ rest,
          next ≠ [] ∧ ∃ match_ ∈ two.erase other, SameRound next match_ := by
        intro next among
        obtain ⟨some', match_, member', same'⟩ := each next (List.mem_cons_of_mem _ among)
        refine ⟨some', match_, (List.mem_erase_of_ne fun both => ?_).mpr member', same'⟩
        obtain ⟨v, inside⟩ := List.exists_mem_of_ne_nil next some'
        exact apartFrom inside among (both ▸ same'.perm.mem_iff.mp inside)
      obtain ⟨family, reordered, pairs⟩ := ih distinctRest distinctRest'
        (fun none_ => some_ (List.mem_of_mem_erase none_)) vertices' each'
      exact ⟨other :: family, (reordered.cons other).trans perm.symm, .cons same pairs⟩

end Families

end DressOn.Rounds
