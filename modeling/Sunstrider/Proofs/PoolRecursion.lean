import Sunstrider.Proofs.PoolLoading
import Sunstrider.Proofs.PoolRolls

/-!
# Going down the pools comes to an end

`SpawnPool` and `DespawnPool` call themselves for the sub-pools of a pool and for
nothing else. Where the groups of pools are acyclic each call goes to a pool that is
lower, so as much fuel as there are templates is enough, whatever is spawned and
whatever is rolled.

With the condition under which the check leaves the groups acyclic this settles what
`LoadFromDB` promises. The three rows at the end are accepted, the check finds
nothing to complain of, and two pools are each other's mother.
-/

set_option linter.unusedSectionVars false

namespace Sunstrider.Pools

open Lib Relation

variable {F : Type} [Chance F]

theorem isSome_bind {α β : Type} {x : Option α} {f : α → Option β} (hx : x.isSome)
    (hf : ∀ a, (f a).isSome) : (x >>= f).isSome := by
  obtain ⟨a, rfl⟩ := Option.isSome_iff_exists.1 hx
  exact hf a

namespace PoolGroup

variable {k : Kind} {despawn1Object : ActivePoolData → Nat → Option ActivePoolData}
  {spawn1Object : Spawns → Nat → Option Spawns}

theorem isSome_despawnList (poolId guid : Nat) {l : List (PoolObject F)}
    (h : ∀ o ∈ l, ∀ s, (despawn1Object s o.guid).isSome) (s : ActivePoolData) :
    (despawnList k poolId guid despawn1Object l s).isSome := by
  induction l generalizing s with
  | nil => rfl
  | cons o l ih =>
      have hl := ih fun o' ho' => h o' (List.mem_cons_of_mem _ ho')
      rw [despawnList]
      split
      · exact isSome_bind (h o List.mem_cons_self s) fun s' => hl _
      · exact hl s

theorem isSome_despawnObject {g : PoolGroup F}
    (h : ∀ o ∈ g.members, ∀ s, (despawn1Object s o.guid).isSome) (s : ActivePoolData)
    (guid : Nat) : (g.despawnObject k despawn1Object s guid).isSome := by
  unfold despawnObject
  refine isSome_bind (isSome_despawnList _ _ ?_ s) fun s' => isSome_despawnList _ _ ?_ s'
  · exact fun o ho => h o (List.mem_append_left _ ho)
  · exact fun o ho => h o (List.mem_append_right _ ho)

theorem isSome_spawnRolled (poolId : Nat) {l : List (PoolObject F)}
    (h : ∀ o ∈ l, ∀ s, (spawn1Object s o.guid).isSome) (triggerFrom : Nat) (s : Spawns) :
    (spawnRolled k poolId spawn1Object l triggerFrom s).isSome := by
  induction l generalizing triggerFrom s with
  | nil => rfl
  | cons o l ih =>
      have hl := ih fun o' ho' => h o' (List.mem_cons_of_mem _ ho')
      rw [spawnRolled]
      split
      · exact hl _ _
      · exact isSome_bind (h o List.mem_cons_self _) fun s' => hl _ _

theorem isSome_spawnObject {g : PoolGroup F} {out : Outside F}
    (hspawn : ∀ o ∈ g.members, ∀ s, (spawn1Object s o.guid).isSome)
    (hdespawn : ∀ o ∈ g.members, ∀ s, (despawn1Object s o.guid).isSome)
    (limit : Nat) (limitPercent : F) (triggerFrom : Nat) (s : Spawns) :
    (g.spawnObject out k spawn1Object despawn1Object limit limitPercent triggerFrom s).isSome := by
  unfold spawnObject
  refine isSome_bind ?_ fun p => ?_
  · unfold spawnMissing
    dsimp only
    split
    · refine isSome_spawnRolled _ (fun o ho => hspawn o ?_) _ _
      exact (rolled_rollObjects s).sublist.subset ho
    · rfl
  · dsimp only
    split
    · exact isSome_bind (isSome_despawnObject hdespawn _ _) fun _ => rfl
    · rfl

theorem isSome_spawnQuests (g : PoolGroup F) (out : Outside F) (limit : Nat) (limitPercent : F)
    (triggerFrom : Nat) (s : Spawns) :
    (g.spawnQuests out limit limitPercent triggerFrom s).isSome := by
  have hchange : ∀ limit s, (g.changeQuests out limit s).isSome := by
    intro limit s
    unfold changeQuests
    exact isSome_bind (isSome_despawnObject (fun _ _ _ => rfl) _ _) fun _ => rfl
  unfold spawnQuests
  dsimp only
  split
  · split
    · rfl
    · exact hchange _ _
  · exact hchange _ _

end PoolGroup

namespace PoolMgr

variable {m : PoolMgr F}

theorem child_of_mem {q : Nat} {o : PoolObject F} (ho : o ∈ (m.groups .pool q).members) :
    m.Child q o.guid := by
  rcases List.mem_append.1 ho with ho | ho
  · exact ⟨false, List.countP_pos_iff.2 ⟨o, ho, decide_eq_true rfl⟩⟩
  · exact ⟨true, List.countP_pos_iff.2 ⟨o, ho, decide_eq_true rfl⟩⟩

theorem isSome_despawnGroup {k : Kind} {pool : Nat}
    {despawn1Object : ActivePoolData → Nat → Option ActivePoolData}
    (h : ∀ o ∈ (m.groups k pool).members, ∀ s, (despawn1Object s o.guid).isSome)
    (s : ActivePoolData) : (m.despawnGroup k despawn1Object s pool).isSome := by
  unfold despawnGroup
  split
  · rfl
  · exact PoolGroup.isSome_despawnObject h s 0

section Height

variable {height : Nat → Nat} (hheight : ∀ q c, m.Child q c → height c < height q)

include hheight

theorem isSome_despawnPool {fuel pool : Nat} (hfuel : height pool < fuel) (s : ActivePoolData) :
    (m.despawnPool fuel s pool).isSome := by
  induction fuel generalizing pool s with
  | zero => omega
  | succ fuel ih =>
      rw [despawnPool]
      refine isSome_bind (isSome_despawnGroup (fun _ _ _ => rfl) s) fun s => ?_
      refine isSome_bind (isSome_despawnGroup (fun _ _ _ => rfl) s) fun s => ?_
      refine isSome_bind (isSome_despawnGroup ?_ s) fun s => ?_
      · intro o ho s
        have := hheight pool o.guid (child_of_mem ho)
        exact ih (by omega) s
      · exact isSome_despawnGroup (fun _ _ _ => rfl) s

theorem isSome_spawnPool (out : Outside F) {fuel pool : Nat} (hfuel : height pool < fuel)
    (s : Spawns) : (m.spawnPool out fuel s pool).isSome := by
  induction fuel generalizing pool s with
  | zero => omega
  | succ fuel ih =>
      have hgroup : ∀ k s, (m.spawnGroup out (fun s child => m.spawnPool out fuel s child)
          (m.despawnPool fuel) k s pool 0).isSome := by
        intro k s
        unfold spawnGroup
        dsimp only
        split
        · rfl
        · cases k with
          | quest => exact PoolGroup.isSome_spawnQuests ..
          | pool =>
              refine PoolGroup.isSome_spawnObject ?_ ?_ _ _ _ _
              · intro o ho s
                have := hheight pool o.guid (child_of_mem ho)
                exact ih (by omega) s
              · intro o ho s
                have := hheight pool o.guid (child_of_mem ho)
                exact isSome_despawnPool hheight (by omega) s
          | creature =>
              exact PoolGroup.isSome_spawnObject (fun _ _ _ => rfl) (fun _ _ _ => rfl) _ _ _ _
          | gameobject =>
              exact PoolGroup.isSome_spawnObject (fun _ _ _ => rfl) (fun _ _ _ => rfl) _ _ _ _
      rw [spawnPool]
      refine isSome_bind (hgroup _ s) fun s => ?_
      refine isSome_bind (hgroup _ s) fun s => ?_
      exact isSome_bind (hgroup _ s) fun s => hgroup _ s

end Height

/-- With more fuel than `n` both recursions come back. -/
def Terminates (m : PoolMgr F) (n : Nat) : Prop :=
  ∀ fuel, n < fuel → ∀ pool,
    (∀ out s, (m.spawnPool out fuel s pool).isSome) ∧ ∀ s, (m.despawnPool fuel s pool).isSome

theorem terminates_of_acyclic {keys : List Nat} (hacyclic : Acyclic m.Child)
    (hkeys : ∀ q c, m.Child q c → c ∈ keys) : m.Terminates keys.length := by
  obtain ⟨height, hle, hheight⟩ := hacyclic.exists_height keys.toFinset fun q c h =>
    List.mem_toFinset.2 (hkeys q c h)
  intro fuel hfuel pool
  have hpool : height pool < fuel := by
    have := hle pool
    have := List.toFinset_card_le keys
    omega
  exact ⟨fun out s => isSome_spawnPool hheight out hpool s,
    fun s => isSome_despawnPool hheight hpool s⟩

end PoolMgr

namespace Tables

open PoolMgr

/-- Whatever the order of the templates, the pools are left acyclic and the recursions
end, if and only if each row on a circle of rows is one the check can take out. -/
theorem loadFromDB_acyclic_iff (o : ObjectMgr) (t : Tables F) :
    (∀ order : List Nat, order.Perm t.templates.poolTemplate.keys →
      Acyclic (loadFromDB o t order).Child ∧
        (loadFromDB o t order).Terminates t.templates.poolTemplate.keys.length) ↔
    ∀ r ∈ t.acceptedPools, ReflTransGen t.Below r.guid r.poolId → t.Removable r := by
  have hbelow : (t.unchecked o).Child = t.Below :=
    funext fun q => funext fun c => propext (child_unchecked o q c)
  have hfinal : ∀ order : List Nat, order.Perm t.templates.poolTemplate.keys →
      (loadFromDB o t order).Child = (order.foldl checkCircle (t.unchecked o)).Child :=
    fun order horder => funext fun q => funext fun c => propext (child_loadFromDB o horder q c)
  have hkeys : ∀ c q, (t.unchecked o).Up c q → c ∈ t.templates.poolTemplate.keys :=
    fun c q => mem_keys_of_up o
  constructor
  · intro hall r hr hback
    by_contra hno
    have hmany : ¬ (t.unchecked o).Single r.poolId r.guid := by
      rw [single_unchecked]
      exact fun h => hno ⟨h.1, h.2 _⟩
    have hchild : (t.unchecked o).Child r.poolId r.guid :=
      (child_unchecked o _ _).2 ⟨r, hr, rfl, rfl⟩
    obtain ⟨order, horder, hcircle⟩ := exists_order hkeys (AList.keys_nodup _) hchild
      (hbelow ▸ hback) hmany
    exact hcircle (hfinal order horder ▸ (hall order horder).1)
  · intro hrows order horder
    have hsingle : ∀ q c, (t.unchecked o).Child q c →
        ReflTransGen (t.unchecked o).Child c q → (t.unchecked o).Single q c := by
      intro q c hchild hback
      rw [hbelow] at hback
      obtain ⟨r, hr, hq, hc⟩ := (child_unchecked o q c).1 hchild
      refine (single_unchecked o q c).2 ⟨?_, fun b => ?_⟩
      · have := (hrows r hr (by rw [hq, hc]; exact hback)).1
        rw [hq, hc] at this
        exact this
      · rcases Nat.eq_zero_or_pos (t.templates.rowCount t.acceptedPools b q c) with hzero | hpos
        · omega
        · obtain ⟨r', hr', hp⟩ := List.countP_pos_iff.1 hpos
          obtain ⟨hq', hc', hb⟩ := of_decide_eq_true hp
          have := (hrows r' hr' (by rw [hq', hc']; exact hback)).2
          rw [hq', hc', hb] at this
          exact this
    have hacyclic : Acyclic (loadFromDB o t order).Child := by
      rw [hfinal order horder]
      exact acyclic_of_single (fun c q h => horder.mem_iff.2 (hkeys c q h)) hsingle
    refine ⟨hacyclic, terminates_of_acyclic hacyclic ?_⟩
    intro q c h
    rw [hfinal order horder] at h
    have hchild := ((Checked.refl (t.unchecked o)).foldl order).child h
    obtain ⟨r, hr, hq, hc⟩ := (child_unchecked o q c).1 hchild
    have haccept := (List.mem_filter.1 hr).2
    unfold acceptPool hasTemplate at haccept
    simp only [Bool.and_eq_true] at haccept
    rw [← AList.mem_keys, ← AList.lookup_isSome, ← hc]
    exact haccept.1.1.2

end Tables

/-! Pool 2 is in pool 3 first, and in pool 1, which is in pool 2. -/

def nothing : ObjectMgr := ⟨fun _ => false, fun _ => none, fun _ => none, fun _ => false⟩

def tangled : Tables ℚ where
  poolTemplate := [(1, ⟨0, 0⟩), (2, ⟨0, 0⟩), (3, ⟨0, 0⟩)]
  poolCreature := []
  poolGameobject := []
  poolPool := [⟨1, 2, 0⟩, ⟨2, 3, 0⟩, ⟨2, 1, 0⟩]
  poolQuest := []

theorem tangled_circle : ¬ ∀ order : List Nat, order.Perm tangled.templates.poolTemplate.keys →
    Acyclic (PoolMgr.loadFromDB nothing tangled order).Child := by
  intro h
  have hdown : (PoolMgr.loadFromDB nothing tangled [1, 2, 3]).Child 1 2 := ⟨false, by decide⟩
  have hback : (PoolMgr.loadFromDB nothing tangled [1, 2, 3]).Child 2 1 := ⟨false, by decide⟩
  exact h [1, 2, 3] (by decide) 1 (.tail (.single hdown) hback)

end Sunstrider.Pools
