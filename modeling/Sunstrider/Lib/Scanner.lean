import Mathlib

/-!
# Scanners of NUL-terminated strings

A scanner goes over a string with a pointer and stops at the first thing it does not want.
The pointer may come to stand on the NUL at the end, and behind it, and there it must not be
read any more: a read there is an overrun.

`Reads p R` says what a scanner does on every string: it never overruns, and it comes to the
value `a` with the rest of the string to go exactly when `R a str rest`. The judgment goes
along the steps of a scanner (`Reads.bind`), so what a scanner accepts can be read off its
text.
-/

namespace Sunstrider.Lib

def nul : Char := Char.ofNat 0

/-- On the first of the characters that are left, or on the NUL if there are none; or behind
the NUL. -/
inductive Ptr
  | at (rest : List Char)
  | behind
deriving DecidableEq, Repr

inductive Overrun
  | overrun
deriving DecidableEq, Repr

namespace Ptr

def deref : Ptr → Except Overrun Char
  | .at (c :: _) => .ok c
  | .at [] => .ok nul
  | .behind => .error .overrun

def succ : Ptr → Ptr
  | .at (_ :: cs) => .at cs
  | .at [] => .behind
  | .behind => .behind

/-- The first characters from the pointer on. -/
def take (len : Nat) : Ptr → List Char
  | .at rest => rest.take len
  | .behind => []

end Ptr

/-- Fails with an overrun, or gives up, or comes to a value and moves the pointer. -/
def Scanner (α : Type) := Ptr → Except Overrun (Option (α × Ptr))

namespace Scanner

variable {α β : Type}

instance : Monad Scanner where
  pure a pos := .ok (some (a, pos))
  bind p q pos :=
    match p pos with
    | .error e => .error e
    | .ok none => .ok none
    | .ok (some (a, pos)) => q a pos

def giveUp : Scanner α := fun _ => .ok none

def position : Scanner Ptr := fun pos => .ok (some (pos, pos))

/-- `*(pos++)` -/
def next : Scanner Char := fun pos =>
  match pos.deref with
  | .error e => .error e
  | .ok c => .ok (some (c, pos.succ))

/-- `if (*(pos++) != c) return nullptr;` -/
def eat (c : Char) : Scanner Unit := do
  let d ← next
  if d = c then pure () else giveUp

/-- What a loop does at a character: go on, end before it or behind it, or give up. -/
inductive Turn
  | on | endBefore | endBehind | giveUp
deriving DecidableEq, Repr

/-- A loop goes on while there are characters, and counts those it went on at. -/
def skipFrom (turn : Char → Turn) : List Char → Option (Nat × List Char)
  | [] => some (0, [])
  | c :: cs =>
      if c = nul then some (0, c :: cs)
      else
        match turn c with
        | .on => (skipFrom turn cs).map fun r => (r.1 + 1, r.2)
        | .endBefore => some (0, c :: cs)
        | .endBehind => some (0, cs)
        | .giveUp => none

def skip (turn : Char → Turn) : Scanner Nat
  | .behind => .error .overrun
  | .at str => .ok ((skipFrom turn str).map fun r => (r.1, .at r.2))

/-! ## What a scanner reads -/

/-- On any string the scanner comes to `a` and leaves `rest` exactly when `R a str rest`. -/
structure Reads (p : Scanner α) (R : α → List Char → List Char → Prop) : Prop where
  run : ∀ str, nul ∉ str → ∃ o, p (.at str) = .ok o ∧
    ∀ a pos, o = some (a, pos) ↔ ∃ rest, pos = .at rest ∧ R a str rest
  suffix : ∀ a str rest, R a str rest → rest <:+ str

variable {p : Scanner α} {q : α → Scanner β} {R R' : α → List Char → List Char → Prop}
  {S : α → β → List Char → List Char → Prop}

theorem Reads.congr (h : Reads p R) (hiff : ∀ a str rest, R a str rest ↔ R' a str rest) :
    Reads p R' where
  run str hstr := by
    obtain ⟨o, hrun, ho⟩ := h.run str hstr
    exact ⟨o, hrun, fun a pos => by simp only [ho, hiff]⟩
  suffix a str rest hR := h.suffix a str rest ((hiff _ _ _).2 hR)

theorem Reads.bind (hp : Reads p R) (hq : ∀ a, Reads (q a) (S a)) :
    Reads (p >>= q) fun b str rest => ∃ a mid, R a str mid ∧ S a b mid rest where
  run str hstr := by
    obtain ⟨o, hrun, ho⟩ := hp.run str hstr
    cases o with
    | none =>
        refine ⟨none, by simp only [Bind.bind, hrun], fun b pos => ?_⟩
        constructor
        · intro h
          exact absurd h (by simp)
        · rintro ⟨rest, rfl, a, mid, hR, -⟩
          exact absurd ((ho a (.at mid)).2 ⟨mid, rfl, hR⟩) (by simp)
    | some r =>
        obtain ⟨a, pos⟩ := r
        obtain ⟨mid, rfl, hR⟩ := (ho a pos).1 rfl
        have hmid : nul ∉ mid := fun h => hstr ((hp.suffix _ _ _ hR).mem h)
        obtain ⟨o', hrun', ho'⟩ := (hq a).run mid hmid
        refine ⟨o', by simp only [Bind.bind, hrun, hrun'], fun b pos' => ?_⟩
        rw [ho']
        constructor
        · rintro ⟨rest, rfl, hS⟩
          exact ⟨rest, rfl, a, mid, hR, hS⟩
        · rintro ⟨rest, rfl, a', mid', hR', hS⟩
          have hsame := (ho a' (.at mid')).2 ⟨mid', rfl, hR'⟩
          simp only [Option.some.injEq, Prod.mk.injEq, Ptr.at.injEq] at hsame
          obtain ⟨rfl, rfl⟩ := hsame
          exact ⟨rest, rfl, hS⟩
  suffix b str rest := by
    rintro ⟨a, mid, hR, hS⟩
    exact ((hq a).suffix _ _ _ hS).trans (hp.suffix _ _ _ hR)

theorem reads_pure (a : α) : Reads (pure a) fun a' str rest => a' = a ∧ rest = str where
  run str _ := by
    refine ⟨some (a, .at str), rfl, fun a' pos => ?_⟩
    constructor
    · rintro ⟨⟩
      exact ⟨str, rfl, rfl, rfl⟩
    · rintro ⟨rest, rfl, rfl, rfl⟩
      rfl
  suffix a' str rest := by
    rintro ⟨-, rfl⟩
    exact List.suffix_refl _

theorem reads_giveUp : Reads (giveUp : Scanner α) fun _ _ _ => False where
  run str _ := ⟨none, rfl, fun _ _ => by simp⟩
  suffix _ _ _ := False.elim

theorem reads_position_bind {q : Ptr → Scanner β} {S : List Char → β → List Char → List Char → Prop}
    (hq : ∀ start, Reads (q (.at start)) (S start)) :
    Reads (position >>= q) fun b str rest => S str b str rest where
  run str hstr := (hq str).run str hstr
  suffix b str rest hS := (hq str).suffix b str rest hS

/-- A test of the next character, as long as the NUL does not pass it. -/
theorem reads_next {f : Char → Scanner α} {S : Char → α → List Char → List Char → Prop}
    (hnul : f nul = giveUp) (hf : ∀ c, Reads (f c) (S c)) :
    Reads (next >>= f) fun a str rest => ∃ c cs, str = c :: cs ∧ S c a cs rest where
  run str hstr := by
    cases str with
    | nil =>
        have hrun : (next >>= f) (.at []) = f nul .behind := rfl
        rw [hrun, hnul]
        exact ⟨none, rfl, fun _ _ => by simp⟩
    | cons c cs =>
        obtain ⟨o, hrun, ho⟩ := (hf c).run cs fun h => hstr (List.mem_cons_of_mem _ h)
        refine ⟨o, hrun, fun a pos => ?_⟩
        rw [ho]
        constructor
        · rintro ⟨rest, rfl, hS⟩
          exact ⟨rest, rfl, c, cs, rfl, hS⟩
        · rintro ⟨rest, rfl, c', cs', hcons, hS⟩
          cases hcons
          exact ⟨rest, rfl, hS⟩
  suffix a str rest := by
    rintro ⟨c, cs, rfl, hS⟩
    exact ((hf c).suffix _ _ _ hS).trans (List.suffix_cons c cs)

theorem reads_eat {c : Char} (hc : c ≠ nul) :
    Reads (eat c) fun _ str rest => str = c :: rest := by
  have hf : ∀ d, Reads (if d = c then pure () else giveUp) fun (_ : Unit) str rest =>
      d = c ∧ rest = str := by
    intro d
    split
    · rename_i hd
      exact (reads_pure ()).congr fun _ _ _ => by simp [hd]
    · rename_i hd
      exact reads_giveUp.congr fun _ _ _ => by simp [hd]
  refine (reads_next (if_neg hc.symm) hf).congr fun _ str rest => ?_
  constructor
  · rintro ⟨d, cs, rfl, rfl, rfl⟩
    rfl
  · rintro rfl
    exact ⟨c, rest, rfl, rfl, rfl⟩

theorem Reads.eat_bind {c : Char} {q : Scanner β} {S : β → List Char → List Char → Prop}
    (hc : c ≠ nul) (hq : Reads q S) :
    Reads (eat c >>= fun _ => q) fun b str rest => ∃ mid, str = c :: mid ∧ S b mid rest :=
  ((reads_eat hc).bind fun _ => hq).congr fun _ _ _ => by simp

/-- The characters a loop has passed over, and where it has ended. -/
def Skipped (turn : Char → Turn) (skipped str rest : List Char) : Prop :=
  (∀ c ∈ skipped, turn c = .on) ∧
    (str = skipped ∧ rest = [] ∨
      (∃ c cs, turn c = .endBefore ∧ str = skipped ++ c :: cs ∧ rest = c :: cs) ∨
      ∃ c, turn c = .endBehind ∧ str = skipped ++ c :: rest)

variable {turn : Char → Turn} {c : Char} {cs skipped rest : List Char}

theorem skipped_nil : Skipped turn skipped [] rest ↔ skipped = [] ∧ rest = [] := by
  constructor
  · rintro ⟨-, ⟨hskipped, hrest⟩ | ⟨c, cs, -, hcons, -⟩ | ⟨c, -, hcons⟩⟩
    · exact ⟨hskipped.symm, hrest⟩
    · exact absurd hcons (by simp)
    · exact absurd hcons (by simp)
  · rintro ⟨rfl, rfl⟩
    exact ⟨by simp, .inl ⟨rfl, rfl⟩⟩

theorem skipped_cons_on (hc : turn c = .on) :
    Skipped turn skipped (c :: cs) rest ↔
      ∃ skipped', skipped = c :: skipped' ∧ Skipped turn skipped' cs rest := by
  constructor
  · rintro ⟨hon, hend⟩
    cases skipped with
    | nil =>
        rcases hend with ⟨hcons, -⟩ | ⟨d, ds, hd, hcons, -⟩ | ⟨d, hd, hcons⟩
        · exact absurd hcons (by simp)
        · simp_all
        · simp_all
    | cons d skipped' =>
        refine ⟨skipped', ?_, fun d hd => hon d (List.mem_cons_of_mem _ hd), ?_⟩
        · rcases hend with ⟨hcons, -⟩ | ⟨d, ds, hd, hcons, -⟩ | ⟨d, hd, hcons⟩ <;> simp_all
        · rcases hend with ⟨hcons, hrest⟩ | ⟨d, ds, hd, hcons, hrest⟩ | ⟨d, hd, hcons⟩
          · exact .inl ⟨(List.cons.inj hcons).2, hrest⟩
          · exact .inr (.inl ⟨d, ds, hd, (List.cons.inj hcons).2, hrest⟩)
          · exact .inr (.inr ⟨d, hd, (List.cons.inj hcons).2⟩)
  · rintro ⟨skipped', rfl, hon, hend⟩
    refine ⟨List.forall_mem_cons.2 ⟨hc, hon⟩, ?_⟩
    rcases hend with ⟨rfl, hrest⟩ | ⟨d, ds, hd, rfl, hrest⟩ | ⟨d, hd, rfl⟩
    · exact .inl ⟨rfl, hrest⟩
    · exact .inr (.inl ⟨d, ds, hd, rfl, hrest⟩)
    · exact .inr (.inr ⟨d, hd, rfl⟩)

theorem skipped_cons_end (hc : turn c ≠ .on) :
    Skipped turn skipped (c :: cs) rest ↔
      skipped = [] ∧ (turn c = .endBefore ∧ rest = c :: cs ∨ turn c = .endBehind ∧ rest = cs) := by
  constructor
  · rintro ⟨hon, hend⟩
    have hskipped : skipped = [] := by
      cases skipped with
      | nil => rfl
      | cons d skipped' =>
          have hd : turn d = .on := hon d List.mem_cons_self
          rcases hend with ⟨hcons, -⟩ | ⟨e, es, -, hcons, -⟩ | ⟨e, -, hcons⟩ <;>
            exact absurd ((List.cons.inj hcons).1 ▸ hd) hc
    subst hskipped
    refine ⟨rfl, ?_⟩
    rcases hend with ⟨hcons, -⟩ | ⟨d, ds, hd, hcons, hrest⟩ | ⟨d, hd, hcons⟩
    · exact absurd hcons (by simp)
    · obtain ⟨rfl, rfl⟩ := List.cons.inj hcons
      exact .inl ⟨hd, hrest⟩
    · obtain ⟨rfl, rfl⟩ := List.cons.inj hcons
      exact .inr ⟨hd, rfl⟩
  · rintro ⟨rfl, ⟨hturn, rfl⟩ | ⟨hturn, rfl⟩⟩
    · exact ⟨by simp, .inr (.inl ⟨c, cs, hturn, rfl, rfl⟩)⟩
    · exact ⟨by simp, .inr (.inr ⟨c, hturn, rfl⟩)⟩

theorem skipFrom_eq_some_iff {str : List Char} {n : Nat} (hstr : nul ∉ str) :
    skipFrom turn str = some (n, rest) ↔
      ∃ skipped, n = skipped.length ∧ Skipped turn skipped str rest := by
  induction str generalizing n with
  | nil =>
      simp only [skipFrom, skipped_nil, Option.some.injEq, Prod.mk.injEq]
      constructor
      · rintro ⟨rfl, rfl⟩
        exact ⟨[], rfl, rfl, rfl⟩
      · rintro ⟨skipped, rfl, rfl, rfl⟩
        exact ⟨rfl, rfl⟩
  | cons c cs ih =>
      have hc : c ≠ nul := fun h => hstr (h ▸ List.mem_cons_self)
      have ih := fun n => @ih n fun h => hstr (List.mem_cons_of_mem _ h)
      rw [skipFrom, if_neg hc]
      cases hturn : turn c with
      | on =>
          simp only [skipped_cons_on hturn, Option.map_eq_some_iff, Prod.mk.injEq]
          constructor
          · rintro ⟨⟨n', rest'⟩, hrec, rfl, rfl⟩
            obtain ⟨skipped, rfl, hskipped⟩ := (ih n').1 hrec
            exact ⟨c :: skipped, rfl, skipped, rfl, hskipped⟩
          · rintro ⟨_, rfl, skipped, rfl, hskipped⟩
            exact ⟨(skipped.length, rest), (ih _).2 ⟨skipped, rfl, hskipped⟩, rfl, rfl⟩
      | endBefore =>
          simp only [skipped_cons_end (by simp [hturn] : turn c ≠ .on)]
          simp [hturn, eq_comm]
      | endBehind =>
          simp only [skipped_cons_end (by simp [hturn] : turn c ≠ .on)]
          simp [hturn, eq_comm]
      | giveUp =>
          simp only [skipped_cons_end (by simp [hturn] : turn c ≠ .on)]
          simp [hturn]

theorem Skipped.suffix {str : List Char} (h : Skipped turn skipped str rest) : rest <:+ str := by
  obtain ⟨-, ⟨rfl, rfl⟩ | ⟨c, cs, -, rfl, rfl⟩ | ⟨c, -, rfl⟩⟩ := h
  · exact List.nil_suffix
  · exact List.suffix_append _ _
  · exact (List.suffix_cons c rest).trans (List.suffix_append _ _)

theorem reads_skip :
    Reads (skip turn) fun n str rest =>
      ∃ skipped, n = skipped.length ∧ Skipped turn skipped str rest where
  run str hstr := by
    refine ⟨_, rfl, fun n pos => ?_⟩
    simp only [← skipFrom_eq_some_iff hstr, Option.map_eq_some_iff, Prod.mk.injEq]
    constructor
    · rintro ⟨⟨n', rest⟩, hskip, rfl, rfl⟩
      exact ⟨rest, rfl, hskip⟩
    · rintro ⟨rest, rfl, hskip⟩
      exact ⟨(n, rest), hskip, rfl, rfl⟩
  suffix n str rest := by
    rintro ⟨skipped, -, hskipped⟩
    exact hskipped.suffix

theorem Reads.skip_bind {q : Nat → Scanner β} {S : Nat → β → List Char → List Char → Prop}
    (hq : ∀ n, Reads (q n) (S n)) :
    Reads (skip turn >>= q) fun b str rest =>
      ∃ skipped mid, Skipped turn skipped str mid ∧ S skipped.length b mid rest := by
  refine (reads_skip.bind hq).congr fun b str rest => ?_
  constructor
  · rintro ⟨_, mid, ⟨skipped, rfl, hskipped⟩, hS⟩
    exact ⟨skipped, mid, hskipped, hS⟩
  · rintro ⟨skipped, mid, hskipped, hS⟩
    exact ⟨_, mid, ⟨skipped, rfl, hskipped⟩, hS⟩

end Scanner

end Sunstrider.Lib
