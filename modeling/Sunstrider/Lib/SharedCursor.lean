import Mathlib

/-!
# A cursor that several readers share

The rows are in the order of their keys, and so are the readers. Each reads on from
where the one before it stopped, up to the first row with a greater key. So a row goes
to the first reader whose key is not below its own, and a row whose key no reader has
goes to the next one, if there is one.
-/

namespace Sunstrider.Lib

variable {α κ : Type} [LinearOrder κ] (key : α → κ)

/-- What each reader reads, and what is left. -/
def share : List κ → List α → List (List α) × List α
  | [], rows => ([], rows)
  | k :: ks, rows =>
      let (shares, rest) := share ks (rows.dropWhile fun row => key row ≤ k)
      ((rows.takeWhile fun row => key row ≤ k) :: shares, rest)

/-- The first reader that does not stop before the row. -/
def ReadBy (ks : List κ) (k : κ) (row : α) : Prop :=
  key row ≤ k ∧ ∀ k' ∈ ks, key row ≤ k' → k ≤ k'

instance (ks : List κ) (k : κ) (row : α) : Decidable (ReadBy key ks k row) :=
  inferInstanceAs (Decidable (_ ∧ ∀ k' ∈ ks, key row ≤ k' → k ≤ k'))

variable {key} {ks : List κ} {k : κ} {rows : List α} {row : α}

/-- Behind a row above the key all are. -/
theorem above_of_first (hfirst : ∀ row' ∈ rows, key row ≤ key row') (hle : ¬ key row ≤ k) :
    ∀ row' ∈ row :: rows, k < key row' := by
  intro row' hmem
  rcases List.mem_cons.1 hmem with rfl | hmem
  · exact not_le.1 hle
  · exact lt_of_lt_of_le (not_le.1 hle) (hfirst row' hmem)

theorem takeWhile_eq_filter (hrows : rows.Pairwise fun a b => key a ≤ key b) :
    rows.takeWhile (fun row => key row ≤ k) = rows.filter fun row => key row ≤ k := by
  induction rows with
  | nil => rfl
  | cons row rows ih =>
      obtain ⟨hfirst, hrest⟩ := List.pairwise_cons.1 hrows
      by_cases hle : key row ≤ k
      · rw [List.takeWhile_cons_of_pos (by simpa using hle),
          List.filter_cons_of_pos (by simpa using hle), ih hrest]
      · rw [List.takeWhile_cons_of_neg (by simpa using hle)]
        refine (List.filter_eq_nil_iff.2 fun row' hmem => ?_).symm
        simpa using above_of_first hfirst hle row' hmem

theorem dropWhile_eq_filter (hrows : rows.Pairwise fun a b => key a ≤ key b) :
    rows.dropWhile (fun row => key row ≤ k) = rows.filter fun row => k < key row := by
  induction rows with
  | nil => rfl
  | cons row rows ih =>
      obtain ⟨hfirst, hrest⟩ := List.pairwise_cons.1 hrows
      by_cases hle : key row ≤ k
      · rw [List.dropWhile_cons_of_pos (by simpa using hle),
          List.filter_cons_of_neg (by simpa using hle), ih hrest]
      · rw [List.dropWhile_cons_of_neg (by simpa using hle)]
        refine (List.filter_eq_self.2 fun row' hmem => ?_).symm
        simpa using above_of_first hfirst hle row' hmem

/-- Each reader reads the rows it is the first not to stop before. -/
theorem share_eq (hks : ks.Pairwise (· < ·)) (hrows : rows.Pairwise fun a b => key a ≤ key b) :
    (share key ks rows).1 = ks.map fun k => rows.filter fun row => ReadBy key ks k row := by
  induction ks generalizing rows with
  | nil => rfl
  | cons k ks ih =>
      obtain ⟨hfirst, hrest⟩ := List.pairwise_cons.1 hks
      have hdropped := hrows.sublist (List.dropWhile_sublist fun row => decide (key row ≤ k))
      rw [share, List.map_cons]
      dsimp only
      rw [ih hrest hdropped, takeWhile_eq_filter hrows, dropWhile_eq_filter hrows]
      congr 1
      · refine List.filter_congr fun row _ => decide_eq_decide.2 ?_
        constructor
        · intro hle
          refine ⟨hle, fun k' hk' _ => ?_⟩
          rcases List.mem_cons.1 hk' with rfl | hk'
          · exact le_refl _
          · exact le_of_lt (hfirst k' hk')
        · exact And.left
      · refine List.map_congr_left fun k' hk' => ?_
        rw [List.filter_filter]
        refine List.filter_congr fun row _ => ?_
        rw [← Bool.decide_and, decide_eq_decide]
        have hlt := hfirst k' hk'
        constructor
        · rintro ⟨⟨hle, hleast⟩, hgt⟩
          refine ⟨hle, fun k'' hk'' hle'' => ?_⟩
          rcases List.mem_cons.1 hk'' with rfl | hk''
          · exact absurd hle'' (not_le.2 hgt)
          · exact hleast k'' hk'' hle''
        · rintro ⟨hle, hleast⟩
          refine ⟨⟨hle, fun k'' hk'' => hleast k'' (List.mem_cons_of_mem _ hk'')⟩, ?_⟩
          refine not_le.1 fun hno => ?_
          exact absurd (hleast k List.mem_cons_self hno) (not_le.2 hlt)

/-- What is left are the rows beyond every reader. -/
theorem share_rest (hrows : rows.Pairwise fun a b => key a ≤ key b) :
    (share key ks rows).2 = rows.filter fun row => ∀ k ∈ ks, k < key row := by
  induction ks generalizing rows with
  | nil => exact (List.filter_eq_self.2 fun row _ => by simp).symm
  | cons k ks ih =>
      have hdropped := hrows.sublist (List.dropWhile_sublist fun row => decide (key row ≤ k))
      rw [share]
      dsimp only
      rw [ih hdropped, dropWhile_eq_filter hrows, List.filter_filter]
      refine List.filter_congr fun row _ => ?_
      rw [← Bool.decide_and, decide_eq_decide, List.forall_mem_cons, and_comm]

variable (key) in
/-- Nothing is read twice, and nothing is passed over. -/
theorem share_append (ks : List κ) (rows : List α) :
    (share key ks rows).1.flatten ++ (share key ks rows).2 = rows := by
  induction ks generalizing rows with
  | nil => rfl
  | cons k ks ih =>
      rw [share]
      dsimp only
      rw [List.flatten_cons, List.append_assoc, ih, List.takeWhile_append_dropWhile]

/-- A row whose key a reader has goes to that reader. -/
theorem readBy_iff_of_mem (hmem : key row ∈ ks) : ReadBy key ks k row ↔ key row = k := by
  constructor
  · rintro ⟨hle, hleast⟩
    exact le_antisymm hle (hleast _ hmem (le_refl _))
  · rintro rfl
    exact ⟨le_refl _, fun k' _ hk' => hk'⟩

/-- Every reader reads exactly the rows of its key if and only if each row whose key no
reader has is beyond all of them. -/
theorem share_exact_iff (hks : ks.Pairwise (· < ·))
    (hrows : rows.Pairwise fun a b => key a ≤ key b) :
    (share key ks rows).1 = ks.map (fun k => rows.filter fun row => key row = k) ↔
      ∀ row ∈ rows, key row ∉ ks → ∀ k ∈ ks, k < key row := by
  rw [share_eq hks hrows, List.map_inj_left]
  constructor
  · intro h row hrow hnot
    by_contra hbelow
    have hsome : ks.filter (fun k => key row ≤ k) ≠ [] := by
      intro hnone
      refine hbelow fun k hk => not_le.1 fun hle => ?_
      have := List.filter_eq_nil_iff.1 hnone k hk
      simp [hle] at this
    -- the first reader that does not stop before it
    obtain ⟨k, ks', hfirst⟩ := List.exists_cons_of_ne_nil hsome
    have hk : k ∈ ks ∧ key row ≤ k := by
      have hmem : k ∈ ks.filter fun k => key row ≤ k := hfirst ▸ List.mem_cons_self
      simpa using hmem
    have hread : ReadBy key ks k row := by
      refine ⟨hk.2, fun k' hk' hle => ?_⟩
      have hmem : k' ∈ ks.filter fun k => key row ≤ k := List.mem_filter.2 ⟨hk', by simpa using hle⟩
      have hsorted := hks.sublist (List.filter_sublist (p := fun k => decide (key row ≤ k)))
      rw [hfirst] at hmem hsorted
      rcases List.mem_cons.1 hmem with rfl | hmem
      · exact le_refl _
      · exact le_of_lt ((List.pairwise_cons.1 hsorted).1 k' hmem)
    have hmem : row ∈ rows.filter fun row => ReadBy key ks k row :=
      List.mem_filter.2 ⟨hrow, by simpa using hread⟩
    rw [h k hk.1] at hmem
    have hkey : key row = k := by simpa using (List.mem_filter.1 hmem).2
    exact hnot (hkey ▸ hk.1)
  · intro h k hk
    refine List.filter_congr fun row hrow => decide_eq_decide.2 ?_
    by_cases hmem : key row ∈ ks
    · exact readBy_iff_of_mem hmem
    · have hlt := h row hrow hmem k hk
      exact ⟨fun hread => absurd hread.1 (not_le.2 hlt), fun heq => absurd (heq ▸ hk) hmem⟩

end Sunstrider.Lib
