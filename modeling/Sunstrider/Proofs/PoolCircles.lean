import Sunstrider.Lib.Circles
import Sunstrider.Pools.PoolMgr

/-!
# The check for circles of pools

The check walks up the search map, which has one mother for each pool, and takes the
link that closes a circle out of the map and, once, out of each list of the mother's
group. The groups may have more: other mothers of the same child, and the same child
twice in one list. So what is left acyclic by the check is the search map, and the
groups only as far as their circles are made of links of the map with a single copy.

Both directions are here. If every link on a circle of the groups is of that kind, no
order of the templates leaves a circle. If one is not, some order does: the circle
through that link is laid along a tree of shortest ways, no circle of the search map
consists of tree links only, and so there is always a template from which the walk
takes out a link that the circle does not need.
-/

set_option linter.unusedSectionVars false

namespace Sunstrider.Pools

open Lib Relation

variable {F : Type} [Chance F]

/-! ## The walk -/

namespace PoolMgr

section Walk

variable {S : SearchMap}

/-- The link that is found closes a circle that the walk has come to. -/
theorem findCircle_some : ∀ {fuel checked pool x y}, findCircle S fuel checked pool = some (x, y) →
    (∀ c ∈ checked, ReflTransGen (Link S.lookup) c pool) →
    Link S.lookup x y ∧ ReflTransGen (Link S.lookup) pool x ∧
      ReflTransGen (Link S.lookup) y x := by
  intro fuel
  induction fuel with
  | zero =>
      intro checked pool x y h
      cases h
  | succ fuel ih =>
      intro checked pool x y h hchecked
      rw [findCircle] at h
      cases hmother : S.lookup pool with
      | none =>
          rw [hmother] at h
          cases h
      | some mother =>
          rw [hmother] at h
          have hreach : ∀ c ∈ pool :: checked, ReflTransGen (Link S.lookup) c pool := by
            intro c hc
            rcases List.mem_cons.1 hc with hc | hc
            · exact hc ▸ .refl
            · exact hchecked c hc
          dsimp only at h
          split at h <;> rename_i hmem
          · obtain ⟨rfl, rfl⟩ := Prod.mk.inj (Option.some.inj h)
            exact ⟨hmother, .refl, hreach _ hmem⟩
          · obtain ⟨hlink, hx, hy⟩ := ih h fun c hc => (hreach c hc).tail hmother
            exact ⟨hlink, .head hmother hx, hy⟩

/-- With fuel for every pool of the map, a walk that finds nothing has ended. -/
theorem findCircle_none : ∀ {fuel checked pool}, findCircle S fuel checked pool = none →
    checked.Nodup → (∀ c ∈ checked, c ∈ S.keys) → pool ∉ checked →
    S.keys.length < checked.length + fuel → Ends S.lookup pool := by
  intro fuel
  induction fuel with
  | zero =>
      intro checked pool _ hnodup hkeys _ hlen
      have := List.Nodup.length_le_of_subset hnodup hkeys
      omega
  | succ fuel ih =>
      intro checked pool h hnodup hkeys hnot hlen
      rw [findCircle] at h
      cases hmother : S.lookup pool with
      | none => exact .stop hmother
      | some mother =>
          rw [hmother] at h
          dsimp only at h
          split at h <;> rename_i hmem
          · cases h
          · refine .step hmother (ih h (List.nodup_cons.2 ⟨hnot, hnodup⟩) ?_ hmem ?_)
            · intro c hc
              rcases List.mem_cons.1 hc with hc | hc
              · rw [hc, ← AList.mem_keys, ← AList.lookup_isSome, hmother]
                rfl
              · exact hkeys c hc
            · rw [List.length_cons]
              omega

/-- On a circle the walk comes back to where it began: any pool checked later was
reached from a pool checked before, and on a circle from no other. -/
theorem findCircle_circle {t : Nat} : ∀ {fuel checked pool x y},
    findCircle S fuel checked pool = some (x, y) →
    (∀ c ∈ pool :: checked, TransGen (Link S.lookup) c c) →
    (∀ c ∈ pool :: checked, c = t ∨ ∃ w ∈ checked, Link S.lookup w c) → pool ∉ checked →
    y = t := by
  intro fuel
  induction fuel with
  | zero =>
      intro checked pool x y h
      cases h
  | succ fuel ih =>
      intro checked pool x y h hcircle hfrom hnot
      rw [findCircle] at h
      cases hmother : S.lookup pool with
      | none =>
          rw [hmother] at h
          cases h
      | some mother =>
          rw [hmother] at h
          have hpool := hcircle pool List.mem_cons_self
          dsimp only at h
          split at h <;> rename_i hmem
          · obtain ⟨rfl, rfl⟩ := Prod.mk.inj (Option.some.inj h)
            rcases hfrom mother hmem with ht | ⟨w, hw, hlink⟩
            · exact ht
            · have hwc := hcircle w (List.mem_cons_of_mem _ hw)
              exact absurd (circle_injective hwc hpool hlink hmother ▸ hw) hnot
          · refine ih h ?_ ?_ hmem
            · intro c hc
              rcases List.mem_cons.1 hc with hc | hc
              · obtain ⟨z, hz, hzp⟩ := TransGen.head'_iff.1 hpool
                obtain rfl : z = mother := Option.some.inj (hz.symm.trans hmother)
                exact hc ▸ TransGen.tail' hzp hmother
              · exact hcircle c hc
            · intro c hc
              rcases List.mem_cons.1 hc with hc | hc
              · exact .inr ⟨pool, List.mem_cons_self, hc ▸ hmother⟩
              · rcases hfrom c hc with ht | ⟨w, hw, hlink⟩
                · exact .inl ht
                · exact .inr ⟨w, List.mem_cons_of_mem _ hw, hlink⟩

end Walk

/-! ## One check -/

variable {m m₀ : PoolMgr F}

/-- The mother that the search map has for a pool. -/
abbrev Up (m : PoolMgr F) (child mother : Nat) : Prop :=
  Link (m.searchMap .pool).lookup child mother

theorem cut_removeLink (m : PoolMgr F) (child mother : Nat) :
    Cut (m.searchMap .pool).lookup ((m.removeLink child mother).searchMap .pool).lookup child := by
  have hmap : (m.removeLink child mother).searchMap .pool = (m.searchMap .pool).erase child :=
    (searchMap_setSearchMap ..).trans (if_pos rfl)
  rw [hmap]
  exact ⟨AList.lookup_erase _ _, fun z hz => AList.lookup_erase_ne hz⟩

/-- What the check of one template does. -/
theorem checkCircle_cases (m : PoolMgr F) (t : Nat) :
    (Ends (m.searchMap .pool).lookup t ∧ m.checkCircle t = m) ∨
    ∃ child mother, m.Up child mother ∧ ReflTransGen m.Up t child ∧
      ReflTransGen m.Up mother child ∧ (TransGen m.Up t t → mother = t) ∧
      m.checkCircle t = m.removeLink child mother := by
  unfold checkCircle
  dsimp only
  cases h : findCircle (m.searchMap .pool) ((m.searchMap .pool).keys.length + 1) [] t with
  | none =>
      refine .inl ⟨findCircle_none h List.nodup_nil ?_ ?_ ?_, rfl⟩
      · intro c hc
        cases hc
      · exact List.not_mem_nil
      · rw [List.length_nil]
        omega
  | some link =>
      obtain ⟨child, mother⟩ := link
      obtain ⟨hlink, hchild, hmother⟩ := findCircle_some h fun c hc => by cases hc
      refine .inr ⟨child, mother, hlink, hchild, hmother, fun hcircle => ?_, rfl⟩
      refine findCircle_circle h ?_ ?_ List.not_mem_nil
      · intro c hc
        rw [List.mem_singleton.1 hc]
        exact hcircle
      · intro c hc
        exact .inl (List.mem_singleton.1 hc)

end PoolMgr

/-! ## The lists of a group -/

/-- The list of the objects with a chance of their own, or the other. -/
def PoolGroup.listOf (g : PoolGroup F) : Bool → List (PoolObject F)
  | true => g.explicitlyChanced
  | false => g.equalChanced

namespace PoolMgr

variable {m m₀ : PoolMgr F}

/-- How many times a list of a pool's group has an object. -/
def times (m : PoolMgr F) (k : Kind) (b : Bool) (pool guid : Nat) : Nat :=
  ((m.groups k pool).listOf b).countP (·.guid = guid)

/-- The sub-pools of a pool, over which the recursion goes. -/
def Child (m : PoolMgr F) (mother child : Nat) : Prop := ∃ b, 0 < m.times .pool b mother child

theorem countP_eraseP_guid (l : List (PoolObject F)) (child c : Nat) :
    (l.eraseP (·.guid = child)).countP (·.guid = c) =
      l.countP (·.guid = c) - if c = child then 1 else 0 := by
  induction l with
  | nil => simp
  | cons o l ih =>
      by_cases ho : o.guid = child
      · rw [List.eraseP_cons_of_pos (p := fun x : PoolObject F => decide (x.guid = child))
          (decide_eq_true ho), List.countP_cons]
        by_cases hc : c = child
        · have hoc : o.guid = c := ho.trans hc.symm
          simp [hoc, hc]
        · have hoc : o.guid ≠ c := fun h => hc (h.symm.trans ho)
          simp [hoc, hc]
      · rw [List.eraseP_cons_of_neg (p := fun x : PoolObject F => decide (x.guid = child))
          (by simpa using ho), List.countP_cons, List.countP_cons, ih]
        by_cases hc : c = child
        · have hoc : o.guid ≠ c := fun h => ho (h.trans hc)
          simp [hoc]
        · simp [hc]

theorem times_removeLink (m : PoolMgr F) (child mother q c : Nat) (b : Bool) :
    (m.removeLink child mother).times .pool b q c =
      m.times .pool b q c - if q = mother ∧ c = child then 1 else 0 := by
  unfold times removeLink
  rw [groups_setSearchMap, groups_setGroup]
  by_cases hq : q = mother
  · subst hq
    rw [if_pos ⟨rfl, rfl⟩]
    have hlist : ((m.groups .pool q).removeOneRelation child).listOf b =
        ((m.groups .pool q).listOf b).eraseP (·.guid = child) := by
      cases b <;> rfl
    rw [hlist, countP_eraseP_guid]
    simp
  · simp [hq]

/-! ## What the checks take away

Links only ever go. A link of the map that is gone has taken one copy from each list
of the group with it. -/

structure Checked (m₀ m : PoolMgr F) : Prop where
  up : ∀ c q, m.Up c q → m₀.Up c q
  times_le : ∀ b q c, m.times .pool b q c ≤ m₀.times .pool b q c
  gone : ∀ c q, m₀.Up c q → m.Up c q ∨ ∀ b, m.times .pool b q c ≤ m₀.times .pool b q c - 1

namespace Checked

theorem refl (m : PoolMgr F) : Checked m m :=
  ⟨fun _ _ h => h, fun _ _ _ => Nat.le_refl _, fun _ _ h => .inl h⟩

theorem removeLink (h : Checked m₀ m) {child mother : Nat} (hup : m.Up child mother) :
    Checked m₀ (m.removeLink child mother) := by
  have hcut := cut_removeLink m child mother
  refine ⟨fun c q hc => h.up c q (hcut.link hc), ?_, ?_⟩
  · intro b q c
    have := h.times_le b q c
    rw [times_removeLink]
    omega
  · intro c q hc
    by_cases hchild : c = child
    · subst hchild
      refine .inr fun b => ?_
      have hq : q = mother := Option.some.inj (hc.symm.trans (h.up c mother hup))
      have := h.times_le b q c
      rw [times_removeLink, if_pos ⟨hq, rfl⟩]
      omega
    · rcases h.gone c q hc with hc | hc
      · exact .inl ((hcut.other c hchild).trans hc)
      · refine .inr fun b => ?_
        have := hc b
        rw [times_removeLink]
        omega

theorem checkCircle (h : Checked m₀ m) (t : Nat) : Checked m₀ (m.checkCircle t) := by
  rcases checkCircle_cases m t with ⟨_, he⟩ | ⟨child, mother, hup, _, _, _, he⟩
  · rw [he]
    exact h
  · rw [he]
    exact h.removeLink hup

theorem foldl (order : List Nat) (h : Checked m₀ m) :
    Checked m₀ (order.foldl PoolMgr.checkCircle m) := by
  induction order generalizing m with
  | nil => exact h
  | cons t order ih => exact ih (h.checkCircle t)

theorem child (h : Checked m₀ m) {q c : Nat} (hc : m.Child q c) : m₀.Child q c := by
  obtain ⟨b, hb⟩ := hc
  exact ⟨b, Nat.lt_of_lt_of_le hb (h.times_le b q c)⟩

end Checked

/-! ## The walks have ended -/

theorem ends_checkCircle_self (m : PoolMgr F) (t : Nat) :
    Ends ((m.checkCircle t).searchMap .pool).lookup t := by
  rcases checkCircle_cases m t with ⟨hends, he⟩ | ⟨child, mother, _, hchild, _, _, he⟩
  · rw [he]
    exact hends
  · rw [he]
    exact (cut_removeLink m child mother).ends_of_reached hchild

theorem ends_checkCircle (m : PoolMgr F) (t : Nat) {p : Nat}
    (h : Ends (m.searchMap .pool).lookup p) :
    Ends ((m.checkCircle t).searchMap .pool).lookup p := by
  rcases checkCircle_cases m t with ⟨_, he⟩ | ⟨child, mother, _, _, _, _, he⟩
  · rw [he]
    exact h
  · rw [he]
    exact (cut_removeLink m child mother).ends h

theorem ends_foldl {order : List Nat} {p : Nat} (h : p ∈ order) (m : PoolMgr F) :
    Ends ((order.foldl checkCircle m).searchMap .pool).lookup p := by
  have hkeep : ∀ (order : List Nat) (m : PoolMgr F), Ends (m.searchMap .pool).lookup p →
      Ends ((order.foldl checkCircle m).searchMap .pool).lookup p := by
    intro order
    induction order with
    | nil => exact fun m h => h
    | cons t order ih => exact fun m h => ih _ (ends_checkCircle m t h)
  induction order generalizing m with
  | nil => cases h
  | cons t order ih =>
      rcases List.mem_cons.1 h with ht | ht
      · subst ht
        exact hkeep order _ (ends_checkCircle_self m p)
      · exact ih ht _

/-! ## No circle is left -/

/-- The links of the groups that the check can take out for good: those the search map
has, with one copy in a list. -/
def Single (m : PoolMgr F) (mother child : Nat) : Prop :=
  m.Up child mother ∧ ∀ b, m.times .pool b mother child ≤ 1

theorem acyclic_of_single {order : List Nat} (hkeys : ∀ c q, m₀.Up c q → c ∈ order)
    (hsingle : ∀ q c, m₀.Child q c → ReflTransGen m₀.Child c q → m₀.Single q c) :
    Acyclic (order.foldl checkCircle m₀).Child := by
  intro x hx
  have hchecked := (Checked.refl m₀).foldl order
  -- every link of the circle is still in the search map
  have hup : ∀ q c, (order.foldl checkCircle m₀).Child q c ∧
      ReflTransGen (order.foldl checkCircle m₀).Child c q →
        Function.swap (order.foldl checkCircle m₀).Up q c := by
    intro q c ⟨hc, hback⟩
    have hback₀ := ReflTransGen.mono (fun _ _ => hchecked.child) _ _ hback
    obtain ⟨hup, htimes⟩ := hsingle q c (hchecked.child hc) hback₀
    rcases hchecked.gone c q hup with hstill | hgone
    · exact hstill
    · obtain ⟨b, hb⟩ := hc
      have := hgone b
      have := htimes b
      omega
  have hcircle : TransGen (order.foldl checkCircle m₀).Up x x :=
    TransGen.swap _ _ (TransGen.mono hup _ _ (circle_links hx))
  obtain ⟨y, hy, -⟩ := TransGen.head'_iff.1 hcircle
  exact (ends_foldl (hkeys x y (hchecked.up x y hy)) m₀).no_circle hcircle

/-! ## A circle that can be left

Through a link that is not `Single` there is a circle along a tree of shortest ways
down from the child. `Laid` says that it is still there. -/

section Laid

variable {parent dist : Nat → Nat} {q c : Nat}

structure Laid (m₀ m : PoolMgr F) (parent : Nat → Nat) (q c : Nat) : Prop where
  tree : ∀ x, ReflTransGen m₀.Child c x → x ≠ c → m.Child (parent x) x
  closing : m.Child q c
  copies : m.Up c q → ∃ b, 2 ≤ m.times .pool b q c

/-- The tree of the groups as they were loaded. -/
def Tree (m₀ : PoolMgr F) (parent dist : Nat → Nat) (c : Nat) : Prop :=
  ∀ x, ReflTransGen m₀.Child c x → x ≠ c →
    m₀.Child (parent x) x ∧ ReflTransGen m₀.Child c (parent x) ∧ dist (parent x) < dist x

theorem Laid.start (htree : Tree m₀ parent dist c) (hc : m₀.Child q c)
    (hmany : ¬ m₀.Single q c) : Laid m₀ m₀ parent q c := by
  refine ⟨fun x hx hne => (htree x hx hne).1, hc, ?_⟩
  intro hup
  by_contra hno
  refine hmany ⟨hup, fun b => ?_⟩
  by_contra hb
  exact hno ⟨b, by omega⟩

theorem Laid.circle (h : Laid m₀ m parent q c) (htree : Tree m₀ parent dist c)
    (hback : ReflTransGen m₀.Child c q) : ¬ Acyclic m.Child := by
  have hreach : ∀ n x, dist x ≤ n → ReflTransGen m₀.Child c x → ReflTransGen m.Child c x := by
    intro n
    induction n with
    | zero =>
        intro x hn hx
        by_cases hxc : x = c
        · exact hxc ▸ .refl
        · have := (htree x hx hxc).2.2
          omega
    | succ n ih =>
        intro x hn hx
        by_cases hxc : x = c
        · exact hxc ▸ .refl
        · obtain ⟨_, hp, hd⟩ := htree x hx hxc
          exact .tail (ih (parent x) (by omega) hp) (h.tree x hx hxc)
  intro hacyclic
  exact hacyclic c (TransGen.tail' (hreach _ q (Nat.le_refl _) hback) h.closing)

/-- A link that is no tree link can go. -/
theorem Laid.removeLink (h : Laid m₀ m parent q c) {child mother : Nat}
    (hno : ReflTransGen m₀.Child c child → child ≠ c → parent child ≠ mother)
    (hup : m.Up child mother) : Laid m₀ (m.removeLink child mother) parent q c := by
  have hcut := cut_removeLink m child mother
  refine ⟨?_, ?_, ?_⟩
  · intro x hx hne
    obtain ⟨b, hb⟩ := h.tree x hx hne
    refine ⟨b, ?_⟩
    rw [times_removeLink, if_neg]
    · exact hb
    · intro he
      exact hno (he.2 ▸ hx) (he.2 ▸ hne) (he.2 ▸ he.1)
  · by_cases he : q = mother ∧ c = child
    · obtain ⟨b, hb⟩ := h.copies (he.1 ▸ he.2 ▸ hup)
      refine ⟨b, ?_⟩
      rw [times_removeLink, if_pos he]
      omega
    · obtain ⟨b, hb⟩ := h.closing
      refine ⟨b, ?_⟩
      rw [times_removeLink, if_neg he]
      exact hb
  · intro hc
    have hne : c ≠ child := by
      intro he
      rw [he, Up, Link, hcut.self] at hc
      cases hc
    obtain ⟨b, hb⟩ := h.copies (hcut.link hc)
    refine ⟨b, ?_⟩
    rw [times_removeLink, if_neg fun he => hne he.2]
    exact hb

/-- On any circle of the search map there is a template whose check takes out a link
that is no tree link. -/
theorem exists_check (htree : Tree m₀ parent dist c) {x : Nat} (hx : TransGen m.Up x x) :
    ∃ t child, TransGen m.Up t t ∧ m.Up child t ∧ ReflTransGen m.Up t child ∧
      (ReflTransGen m₀.Child c child → child ≠ c → parent child ≠ t) ∧
      m.checkCircle t = m.removeLink child t := by
  obtain ⟨w, t, hxw, hwt, htx, hdist⟩ := exists_not_drop dist hx
  have hw : TransGen m.Up w w := TransGen.head' hwt (htx.trans hxw)
  have ht : TransGen m.Up t t := TransGen.tail' (htx.trans hxw) hwt
  rcases checkCircle_cases m t with ⟨hends, _⟩ | ⟨child, mother, hup, hchild, _, hback, he⟩
  · exact absurd ht hends.no_circle
  · obtain rfl : mother = t := hback ht
    have hcc : TransGen m.Up child child := TransGen.head' hup hchild
    obtain rfl : child = w := circle_injective hcc hw hup hwt
    refine ⟨mother, child, ht, hup, hchild, ?_, he⟩
    intro hreach hne hparent
    exact hdist (hparent ▸ (htree child hreach hne).2.2)

theorem length_removeLink {child mother : Nat} (hup : m.Up child mother) :
    ((m.removeLink child mother).searchMap .pool).keys.length + 1 =
      (m.searchMap .pool).keys.length := by
  have hmap : (m.removeLink child mother).searchMap .pool = (m.searchMap .pool).erase child :=
    (searchMap_setSearchMap ..).trans (if_pos rfl)
  have hmem : child ∈ (m.searchMap .pool).keys := by
    have hlookup : (m.searchMap .pool).lookup child = some mother := hup
    rw [← AList.mem_keys, ← AList.lookup_isSome, hlookup]
    rfl
  have := List.length_pos_of_mem hmem
  rw [hmap, AList.keys_erase, List.length_erase_of_mem hmem]
  omega

/-- Checks that end every walk and leave the circle. -/
theorem exists_checks (htree : Tree m₀ parent dist c) : ∀ (n : Nat) (m : PoolMgr F),
    (m.searchMap .pool).keys.length ≤ n → Laid m₀ m parent q c →
    ∃ l : List Nat, l.Nodup ∧ (∀ t ∈ l, TransGen m.Up t t) ∧
      Laid m₀ (l.foldl checkCircle m) parent q c ∧
      ∀ p, ¬ TransGen (l.foldl checkCircle m).Up p p := by
  intro n
  induction n with
  | zero =>
      intro m hn h
      refine ⟨[], List.nodup_nil, (by intro t ht; cases ht), h, ?_⟩
      intro p hp
      obtain ⟨y, hy, -⟩ := TransGen.head'_iff.1 hp
      have := length_removeLink (m := m) hy
      omega
  | succ n ih =>
      intro m hn h
      by_cases hcircle : ∃ x, TransGen m.Up x x
      · obtain ⟨x, hx⟩ := hcircle
        obtain ⟨t, child, ht, hup, hreach, hno, he⟩ := exists_check htree hx
        have hlength := length_removeLink hup
        have hcut := cut_removeLink m child t
        obtain ⟨l, hnodup, hl, hlaid, hends⟩ :=
          ih (m.removeLink child t) (by omega) (h.removeLink hno hup)
        refine ⟨t :: l, List.nodup_cons.2 ⟨?_, hnodup⟩, ?_, ?_, ?_⟩
        · intro hmem
          exact (hcut.ends_of_reached hreach).no_circle (hl t hmem)
        · intro s hs
          rcases List.mem_cons.1 hs with hs | hs
          · exact hs ▸ ht
          · exact hcut.circle (hl s hs)
        · rw [List.foldl_cons, he]
          exact hlaid
        · rw [List.foldl_cons, he]
          exact hends
      · exact ⟨[], List.nodup_nil, (by intro t ht; cases ht), h, fun p hp => hcircle ⟨p, hp⟩⟩

/-- Where all walks end the check does nothing. -/
theorem foldl_of_ends (hends : ∀ p, ¬ TransGen m.Up p p) (order : List Nat) :
    order.foldl checkCircle m = m := by
  induction order with
  | nil => rfl
  | cons t order ih =>
      rcases checkCircle_cases m t with ⟨_, he⟩ | ⟨child, mother, hup, _, hback, _, _⟩
      · rw [List.foldl_cons, he, ih]
      · exact absurd (TransGen.head' hup hback) (hends child)

/-- A link on a circle that is not `Single` leaves a circle in some order. -/
theorem exists_order {keys : List Nat} (hkeys : ∀ c q, m₀.Up c q → c ∈ keys)
    (hnodup : keys.Nodup) (hc : m₀.Child q c) (hback : ReflTransGen m₀.Child c q)
    (hmany : ¬ m₀.Single q c) :
    ∃ order : List Nat, order.Perm keys ∧ ¬ Acyclic (order.foldl checkCircle m₀).Child := by
  obtain ⟨parent, dist, htree⟩ := exists_parents m₀.Child c
  obtain ⟨l, hl, hcircles, hlaid, hends⟩ :=
    exists_checks htree _ m₀ (Nat.le_refl _) (Laid.start htree hc hmany)
  refine ⟨l ++ keys.filter (· ∉ l), ?_, ?_⟩
  · refine (List.perm_ext_iff_of_nodup ?_ hnodup).2 fun t => ?_
    · refine hl.append (hnodup.filter _) fun t ht ht' => ?_
      exact of_decide_eq_true (List.mem_filter.1 ht').2 ht
    · have hsub : t ∈ l → t ∈ keys := by
        intro ht
        obtain ⟨y, hy, -⟩ := TransGen.head'_iff.1 (hcircles t ht)
        exact hkeys t y hy
      by_cases ht : t ∈ l
      · simp [ht, hsub ht]
      · simp [ht]
  · rw [List.foldl_append, foldl_of_ends hends]
    exact hlaid.circle htree hback

end Laid

end PoolMgr

end Sunstrider.Pools
