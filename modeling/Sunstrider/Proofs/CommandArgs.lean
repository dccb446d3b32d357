import Sunstrider.Chat.ChatCommand
import Sunstrider.Proofs.IntegerArgs

/-!
# Optional arguments are found by complete backtracking

A choice says of each `Optional` of a signature whether it is present. With a choice made,
the arguments parse in one way or not at all (`Parses`). The search finds the best of the
choices that parse, the one that has a value at the first `Optional` where it differs from
another, and it fails only if there is none (`finds`). The tuple it leaves is that of
the choice, whatever was in it before, so nothing is left of attempts that were given up.
-/

namespace Sunstrider.Chat

variable {V T : Type}

/-! ## What a choice parses to -/

/-- A vector takes as many elements as there are. -/
inductive Elements (A : Element V) : List Char → List V → List Char → Prop
  | done {args : List Char} (h : A.parse args = none) : Elements A args [] args
  | more {args next rest : List Char} {v : V} {vs : List V} (h : A.parse args = some (v, next))
      (hrest : Elements A next vs rest) : Elements A args (v :: vs) rest

def Single.Parses : Single V → List Char → V → List Char → Prop
  | .plain A, args, v, next => A.parse args = some (v, next)
  | .vector A, args, vs, next => Elements A args vs next

/-- With a value at the `Optional`s where the choice is `true`, and at no other. -/
def Parses {T : Type} : Signature T → List Bool → List Char → T → List Char → Prop
  | .nil, choice, args, _, rest => choice = [] ∧ rest = args
  | .single S sig, choice, args, (v, t), rest =>
      ∃ next, S.Parses args v next ∧ Parses sig choice next t rest
  | .optional S sig, choice, args, (v, t), rest =>
      ∃ present choice', choice = present :: choice' ∧
        if present then
          ∃ w next, v = some w ∧ S.Parses args w next ∧ Parses sig choice' next t rest
        else v = none ∧ Parses sig choice' args t rest

/-- At the first place where the choices differ, this one has a value. -/
def Prefers (choice choice' : List Bool) : Prop :=
  ∃ same after after', choice = same ++ true :: after ∧ choice' = same ++ false :: after'

/-- The choice parses, and no other that does is to be preferred. -/
structure Best (sig : Signature T) (choice : List Bool) (args : List Char) (t : T)
    (rest : List Char) : Prop where
  parses : Parses sig choice args t rest
  best : ∀ choice' t' rest', Parses sig choice' args t' rest' →
    choice' = choice ∨ Prefers choice choice'

/-! ## One parameter -/

theorem parse_of_tryConsume_none {A : ArgInfo V} {val back : V} {args : List Char}
    (h : A.tryConsume val args = (back, none)) : A.parse args = none := by
  rw [ArgInfo.tryConsume] at h
  split at h
  · cases h
  · assumption

theorem vectorLoop_spec (A : Element V) (val : List V) (args : List Char) :
    ∃ vs rest, Elements A args vs rest ∧ vectorLoop A val args = (val ++ vs, rest) := by
  fun_induction vectorLoop A val args with
  | case1 val args back next h ih =>
      obtain ⟨vs, rest, hvs, hloop⟩ := ih
      exact ⟨back :: vs, rest, .more (ArgInfo.parse_of_tryConsume h) hvs, by rw [hloop]; simp⟩
  | case2 val args back h => exact ⟨[], args, .done (parse_of_tryConsume_none h), by simp⟩

theorem Elements.unique {A : Element V} {args rest rest' : List Char} {vs vs' : List V}
    (h : Elements A args vs rest) (h' : Elements A args vs' rest') : vs = vs' ∧ rest = rest' := by
  induction h generalizing vs' with
  | done hnone =>
      cases h' with
      | done => exact ⟨rfl, rfl⟩
      | more hsome => rw [hnone] at hsome; cases hsome
  | more hsome _ ih =>
      cases h' with
      | done hnone => rw [hnone] at hsome; cases hsome
      | more hsome' hrest' =>
          rw [hsome] at hsome'
          cases hsome'
          obtain ⟨rfl, rfl⟩ := ih hrest'
          exact ⟨rfl, rfl⟩

namespace Single

variable {S : Single V} {args next next' : List Char} {v v' : V}

theorem Parses.unique (h : S.Parses args v next) (h' : S.Parses args v' next') :
    v = v' ∧ next = next' := by
  cases S with
  | plain A =>
      have hsame := h.symm.trans h'
      cases hsame
      exact ⟨rfl, rfl⟩
  | vector A => exact Elements.unique h h'

theorem tryConsumeTo_spec (S : Single V) (args : List Char) :
    (∃ v next, S.Parses args v next ∧ ∀ val, S.tryConsumeTo val args = (v, some next)) ∨
    (∀ v next, ¬S.Parses args v next) ∧ ∀ val, ∃ left, S.tryConsumeTo val args = (left, none) := by
  cases S with
  | plain A =>
      cases hparse : A.parse args with
      | none =>
          refine .inr ⟨fun v next h => ?_, fun val => ⟨A.leftover val args, ?_⟩⟩
          · exact absurd (hparse.symm.trans h) (by simp)
          · rw [tryConsumeTo, ArgInfo.tryConsume, hparse]
      | some r =>
          refine .inl ⟨r.1, r.2, hparse, fun val => ?_⟩
          rw [tryConsumeTo, ArgInfo.tryConsume, hparse]
  | vector A =>
      obtain ⟨vs, rest, hvs, hloop⟩ := vectorLoop_spec A [] args
      exact .inl ⟨vs, rest, hvs, fun val => by rw [tryConsumeTo, hloop]; rfl⟩

end Single

/-! ## All parameters -/

theorem Prefers.cons {choice choice' : List Bool} (present : Bool) (h : Prefers choice choice') :
    Prefers (present :: choice) (present :: choice') := by
  obtain ⟨same, after, after', rfl, rfl⟩ := h
  exact ⟨present :: same, after, after', rfl, rfl⟩

theorem Prefers.asymm {choice choice' : List Bool} (h : Prefers choice choice') :
    ¬Prefers choice' choice := by
  obtain ⟨same, after, after', rfl, rfl⟩ := h
  rintro ⟨same', after₂, after₂', heq, heq'⟩
  induction same generalizing same' with
  | nil =>
      cases same' with
      | nil => cases heq
      | cons b same' =>
          obtain ⟨rfl, -⟩ := List.cons.inj heq
          cases heq'
  | cons b same ih =>
      cases same' with
      | nil =>
          obtain ⟨rfl, -⟩ := List.cons.inj heq
          cases heq'
      | cons b' same' =>
          exact ih same' (List.cons.inj heq).2 (List.cons.inj heq').2

theorem Parses.unique {sig : Signature T} {choice : List Bool} {args rest rest' : List Char}
    {t t' : T} (h : Parses sig choice args t rest) (h' : Parses sig choice args t' rest') :
    t = t' ∧ rest = rest' := by
  induction sig generalizing choice args with
  | nil => exact ⟨rfl, h.2.trans h'.2.symm⟩
  | single S sig ih =>
      obtain ⟨v, t⟩ := t
      obtain ⟨v', t'⟩ := t'
      obtain ⟨next, hS, hsig⟩ := h
      obtain ⟨next', hS', hsig'⟩ := h'
      obtain ⟨rfl, rfl⟩ := hS.unique hS'
      obtain ⟨rfl, rfl⟩ := ih hsig hsig'
      exact ⟨rfl, rfl⟩
  | optional S sig ih =>
      obtain ⟨v, t⟩ := t
      obtain ⟨v', t'⟩ := t'
      obtain ⟨present, choice, rfl, hsig⟩ := h
      obtain ⟨_, _, heq, hsig'⟩ := h'
      obtain ⟨rfl, rfl⟩ := List.cons.inj heq
      cases present with
      | true =>
          obtain ⟨w, next, rfl, hS, hsig⟩ := hsig
          obtain ⟨w', next', rfl, hS', hsig'⟩ := hsig'
          obtain ⟨rfl, rfl⟩ := hS.unique hS'
          obtain ⟨rfl, rfl⟩ := ih hsig hsig'
          exact ⟨rfl, rfl⟩
      | false =>
          obtain ⟨rfl, hsig⟩ := hsig
          obtain ⟨rfl, hsig'⟩ := hsig'
          obtain ⟨rfl, rfl⟩ := ih hsig hsig'
          exact ⟨rfl, rfl⟩

/-- One choice is the best. -/
theorem Best.unique {sig : Signature T} {choice choice' : List Bool} {args rest rest' : List Char}
    {t t' : T} (h : Best sig choice args t rest) (h' : Best sig choice' args t' rest') :
    t = t' ∧ rest = rest' := by
  have hsame : choice' = choice := by
    rcases h.best _ _ _ h'.parses with heq | hprefers
    · exact heq
    · rcases h'.best _ _ _ h.parses with heq | hprefers'
      · exact heq.symm
      · exact absurd hprefers' hprefers.asymm
  subst hsame
  exact h.parses.unique h'.parses

/-- What there is to say of the search in the parameters from some offset on. -/
def Finds (sig : Signature T) (args : List Char) : Prop :=
  (∃ choice t rest, Best sig choice args t rest ∧
    ∀ tuple, goNext sig tuple args = (t, some rest)) ∨
  (∀ choice t rest, ¬Parses sig choice args t rest) ∧
    ∀ tuple, ∃ left, goNext sig tuple args = (left, none)

theorem finds_single {S : Single V} {sig : Signature T} (args : List Char)
    (ih : ∀ args, Finds sig args) : Finds (.single S sig) args := by
  rcases S.tryConsumeTo_spec args with ⟨v, next, hS, hrun⟩ | ⟨hnone, hrun⟩
  · rcases ih next with ⟨choice, t, rest, hbest, hsig⟩ | ⟨hnot, hsig⟩
    · refine .inl ⟨choice, (v, t), rest, ⟨⟨next, hS, hbest.parses⟩, ?_⟩, ?_⟩
      · rintro choice' ⟨v', t'⟩ rest' ⟨next', hS', hparses⟩
        obtain ⟨-, rfl⟩ := hS.unique hS'
        exact hbest.best _ _ _ hparses
      · rintro ⟨val, tuple⟩
        simp only [goNext, hrun, hsig]
    · refine .inr ⟨?_, ?_⟩
      · rintro choice' ⟨v', t'⟩ rest' ⟨next', hS', hparses⟩
        obtain ⟨-, rfl⟩ := hS.unique hS'
        exact hnot _ _ _ hparses
      · rintro ⟨val, tuple⟩
        obtain ⟨left, hleft⟩ := hsig tuple
        exact ⟨(v, left), by simp only [goNext, hrun, hleft]⟩
  · refine .inr ⟨?_, ?_⟩
    · rintro choice' ⟨v', t'⟩ rest' ⟨next', hS', -⟩
      exact hnone _ _ hS'
    · rintro ⟨val, tuple⟩
      obtain ⟨left, hleft⟩ := hrun val
      exact ⟨(left, tuple), by simp only [goNext, hleft]⟩

/-- Where the attempt with a value has failed, whatever it has left in the tuple. -/
theorem finds_omitted {S : Single V} {sig : Signature T} {args : List Char}
    (ih : ∀ args, Finds sig args)
    (hpresent : ∀ choice v t rest, ¬∃ next, S.Parses args v next ∧ Parses sig choice next t rest)
    (hrun : ∀ val tuple, ∃ left, goNext (.optional S sig) (val, tuple) args =
      ((none, (goNext sig left args).1), (goNext sig left args).2)) :
    Finds (.optional S sig) args := by
  rcases ih args with ⟨choice, t, rest, hbest, hsig⟩ | ⟨hnot, hsig⟩
  · refine .inl ⟨false :: choice, (none, t), rest, ⟨⟨false, choice, rfl, rfl, hbest.parses⟩, ?_⟩, ?_⟩
    · rintro _ ⟨v', t'⟩ rest' ⟨present, choice', rfl, hparses⟩
      cases present with
      | true =>
          obtain ⟨w, next, -, hparses⟩ := hparses
          exact absurd ⟨next, hparses⟩ (hpresent _ _ _ _)
      | false =>
          rcases hbest.best _ _ _ hparses.2 with rfl | hprefers
          · exact .inl rfl
          · exact .inr (hprefers.cons false)
    · rintro ⟨val, tuple⟩
      obtain ⟨left, hleft⟩ := hrun val tuple
      rw [hleft, hsig]
  · refine .inr ⟨?_, ?_⟩
    · rintro _ ⟨v', t'⟩ rest' ⟨present, choice', rfl, hparses⟩
      cases present with
      | true =>
          obtain ⟨w, next, -, hparses⟩ := hparses
          exact absurd ⟨next, hparses⟩ (hpresent _ _ _ _)
      | false => exact hnot _ _ _ hparses.2
    · rintro ⟨val, tuple⟩
      obtain ⟨left, hleft⟩ := hrun val tuple
      obtain ⟨left', hleft'⟩ := hsig left
      exact ⟨(none, left'), by rw [hleft, hleft']⟩

theorem finds_optional {S : Single V} {sig : Signature T} (args : List Char)
    (ih : ∀ args, Finds sig args) : Finds (.optional S sig) args := by
  rcases S.tryConsumeTo_spec args with ⟨v, next, hS, hrun⟩ | ⟨hnone, hrun⟩
  · rcases ih next with ⟨choice, t, rest, hbest, hsig⟩ | ⟨hnot, hsig⟩
    · refine .inl ⟨true :: choice, (some v, t), rest,
        ⟨⟨true, choice, rfl, v, next, rfl, hS, hbest.parses⟩, ?_⟩, ?_⟩
      · rintro _ ⟨v', t'⟩ rest' ⟨present, choice', rfl, hparses⟩
        cases present with
        | true =>
            obtain ⟨w, next', -, hS', hparses⟩ := hparses
            obtain ⟨-, rfl⟩ := hS.unique hS'
            rcases hbest.best _ _ _ hparses with rfl | hprefers
            · exact .inl rfl
            · exact .inr (hprefers.cons true)
        | false => exact .inr ⟨[], choice, choice', rfl, rfl⟩
      · rintro ⟨val, tuple⟩
        simp only [goNext, hrun, hsig]
    · refine finds_omitted ih ?_ fun val tuple => ?_
      · rintro choice v' t rest ⟨next', hS', hparses⟩
        obtain ⟨-, rfl⟩ := hS.unique hS'
        exact hnot _ _ _ hparses
      · obtain ⟨left, hleft⟩ := hsig tuple
        exact ⟨left, by simp only [goNext, hrun, hleft]⟩
  · refine finds_omitted ih ?_ fun val tuple => ?_
    · rintro choice v' t rest ⟨next', hS', -⟩
      exact hnone _ _ hS'
    · obtain ⟨left, hleft⟩ := hrun S.initial
      exact ⟨tuple, by simp only [goNext, hleft]⟩

theorem finds (sig : Signature T) (args : List Char) : Finds sig args := by
  induction sig generalizing args with
  | nil =>
      refine .inl ⟨[], (), args, ⟨⟨rfl, rfl⟩, ?_⟩, fun tuple => rfl⟩
      rintro choice' t' rest' ⟨rfl, -⟩
      exact .inl rfl
  | single S sig ih => exact finds_single args ih
  | optional S sig ih => exact finds_optional args ih

/-- The arguments are consumed exactly if some choice of the `Optional`s that are present
parses. The tuple and the arguments that remain are those of the best choice, and the
arguments are as they were after a failure. -/
theorem tryConsumeToTuple_exact (self : CommandArgs) (sig : Signature T) (tuple : T) :
    ((self.tryConsumeToTuple sig tuple).2.2 = true ↔
      ∃ choice t rest, Parses sig choice self._args t rest) ∧
    (∀ t rest, self.tryConsumeToTuple sig tuple = (t, { self with _args := rest }, true) ↔
      ∃ choice, Best sig choice self._args t rest) ∧
    ((self.tryConsumeToTuple sig tuple).2.2 = false →
      (self.tryConsumeToTuple sig tuple).2.1 = self) := by
  rcases finds sig self._args with ⟨choice, t, rest, hbest, hrun⟩ | ⟨hnot, hrun⟩
  · have htry : self.tryConsumeToTuple sig tuple = (t, { self with _args := rest }, true) := by
      rw [CommandArgs.tryConsumeToTuple, hrun]
    rw [htry]
    refine ⟨iff_of_true rfl ⟨choice, t, rest, hbest.parses⟩, fun t' rest' => ?_, fun h => by cases h⟩
    constructor
    · intro h
      cases h
      exact ⟨choice, hbest⟩
    · rintro ⟨choice', hbest'⟩
      obtain ⟨rfl, rfl⟩ := hbest.unique hbest'
      rfl
  · obtain ⟨left, hleft⟩ := hrun tuple
    have htry : self.tryConsumeToTuple sig tuple = (left, self, false) := by
      rw [CommandArgs.tryConsumeToTuple, hleft]
    rw [htry]
    refine ⟨iff_of_false Bool.false_ne_true ?_, fun t' rest' => iff_of_false ?_ ?_, fun _ => rfl⟩
    · rintro ⟨choice, t, rest, hparses⟩
      exact hnot _ _ _ hparses
    · intro h
      exact absurd (congrArg (·.2.2) h) (by simp)
    · rintro ⟨choice, hbest⟩
      exact hnot _ _ _ hbest.parses

/-! ## The integral types -/

theorem length_tokenize {args : List Char} (h : firstToken args ≠ []) :
    (tokenize args).2.length < args.length := by
  rw [firstToken_eq] at h
  have hparts := congrArg List.length (List.takeWhile_append_dropWhile (p := isToken) (l := args))
  have hrest : (tokenize args).2.length ≤ (args.dropWhile isToken).length :=
    (List.dropWhile_suffix _).length_le
  have htoken := List.length_pos_of_ne_nil h
  rw [List.length_append] at hparts
  omega

/-- The assignment is not made when the conversion throws. -/
def IntegralType.element (T : IntegralType) : Element Int where
  parse := T.tryConsume
  leftover val _ := val
  initial := 0
  consumes args v next h := by
    rw [IntegralType.tryConsume_eq] at h
    split at h
    · cases h
    · rename_i hnot
      cases h
      refine length_tokenize fun hnil => hnot (.inl ?_)
      rw [hnil]
      rfl

end Sunstrider.Chat
