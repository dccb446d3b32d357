import Sunstrider.Chat.ChatCommandArgs

/-!
# Which integer arguments arrive unaltered

A token should be taken as a parameter of type `T` when it is a decimal literal for a number
of `T`, and for that number. The tokens for which something else can happen are told by what
the conversion sees: it must find a number, and one within its 64 bits, with white space
before it or other characters after it or outside the range of `T`.

Whatever its signedness, a parameter gets the number the conversion has found modulo two to
the width of the parameter (`tryConsume_eq`). That is the number itself exactly when it is in
the range of the type (`assign_eq_iff`), so a number outside it is never refused for that.
-/

namespace Sunstrider.Chat

/-! ## Literals -/

/-- The token is a decimal literal, with a sign or without one, and nothing else. -/
def Denotes (token : List Char) (n : Int) : Prop :=
  ∃ digits, digits ≠ [] ∧ (∀ d ∈ digits, d.isDigit) ∧
    (token = digits ∧ n = magnitude digits ∨ token = '+' :: digits ∧ n = magnitude digits ∨
      token = '-' :: digits ∧ n = -(magnitude digits : Int))

/-- The scan has found a literal and has passed over nothing. -/
structure Scan.Whole (s : Scan) : Prop where
  space : s.space = []
  digits : s.digits ≠ []
  rest : s.rest = []

variable {token digits : List Char} {n : Int}

theorem isspace_of_isDigit {c : Char} (hc : c.isDigit) : isspace c = false := by
  by_contra hs
  have hspace : c = ' ' ∨ c = '\t' ∨ c = '\n' ∨ c = Char.ofNat 11 ∨ c = Char.ofNat 12 ∨
      c = '\r' := by
    simp only [isspace, Bool.or_eq_true, decide_eq_true_eq, Bool.not_eq_false, or_assoc] at hs
    exact hs
  rcases hspace with rfl | rfl | rfl | rfl | rfl | rfl <;> exact absurd hc (by decide)

theorem scan_signed {c : Char} (hc : c = '+' ∨ c = '-') (hdigits : ∀ d ∈ digits, d.isDigit) :
    scan (c :: digits) = { space := [], sign := some c, digits, rest := [] } := by
  have hspace : isspace c = false := by
    rcases hc with rfl | rfl <;> rfl
  have hsign : scanSign (c :: digits) = (some c, digits) := by
    rcases hc with rfl | rfl <;> rfl
  simp [scan, hspace, hsign, List.takeWhile_eq_self_iff.2 hdigits,
    List.dropWhile_eq_nil_iff.2 hdigits]

theorem scan_digits (hne : digits ≠ []) (hdigits : ∀ d ∈ digits, d.isDigit) :
    scan digits = { space := [], sign := none, digits, rest := [] } := by
  obtain ⟨c, cs, rfl⟩ := List.exists_cons_of_ne_nil hne
  have hc : c.isDigit := hdigits c List.mem_cons_self
  have hsign : scanSign (c :: cs) = (none, c :: cs) := by
    unfold scanSign
    split
    · simp_all
    · simp_all
    · rfl
  have hspace : (c :: cs).dropWhile isspace = c :: cs := by
    simp [isspace_of_isDigit hc]
  simp only [scan, hspace, hsign, List.takeWhile_eq_self_iff.2 hdigits,
    List.dropWhile_eq_nil_iff.2 hdigits]
  simp [isspace_of_isDigit hc]

theorem scanSign_append (str : List Char) :
    (scanSign str).1.toList ++ (scanSign str).2 = str := by
  unfold scanSign
  split <;> rfl

theorem sign_of_scanSign {str : List Char} {c : Char} (h : (scanSign str).1 = some c) :
    c = '+' ∨ c = '-' := by
  unfold scanSign at h
  split at h
  · exact .inl (Option.some.inj h).symm
  · exact .inr (Option.some.inj h).symm
  · exact absurd h (by simp)

/-- What is scanned is cut up and nothing of it is lost. -/
theorem scan_append (str : List Char) :
    (scan str).space ++ ((scan str).sign.toList ++ ((scan str).digits ++ (scan str).rest)) =
      str := by
  simp [scan, List.takeWhile_append_dropWhile, scanSign_append]

/-- The tokens that denote a number are those that are whole to the conversions. -/
theorem denotes_iff : Denotes token n ↔ (scan token).Whole ∧ (scan token).number = n := by
  constructor
  · rintro ⟨digits, hne, hdigits, ⟨rfl, rfl⟩ | ⟨rfl, rfl⟩ | ⟨rfl, rfl⟩⟩
    · rw [scan_digits hne hdigits]
      exact ⟨⟨rfl, hne, rfl⟩, rfl⟩
    · rw [scan_signed (.inl rfl) hdigits]
      exact ⟨⟨rfl, hne, rfl⟩, rfl⟩
    · rw [scan_signed (.inr rfl) hdigits]
      exact ⟨⟨rfl, hne, rfl⟩, rfl⟩
  · rintro ⟨⟨hspace, hne, hrest⟩, rfl⟩
    have htoken : (scan token).sign.toList ++ (scan token).digits = token := by
      simpa [hspace, hrest] using scan_append token
    refine ⟨(scan token).digits, hne, fun d hd => List.mem_takeWhile_imp hd, ?_⟩
    cases hsign : (scan token).sign with
    | none =>
        rw [hsign] at htoken
        exact .inl ⟨htoken.symm, by simp [Scan.number, hsign]⟩
    | some c =>
        rw [hsign] at htoken
        rcases sign_of_scanSign hsign with rfl | rfl
        · exact .inr (.inl ⟨htoken.symm, by simp [Scan.number, hsign]⟩)
        · exact .inr (.inr ⟨htoken.symm, by simp [Scan.number, hsign]⟩)

/-! ## What a parameter gets -/

namespace IntegralType

variable {T : IntegralType} {v : Int} {args : List Char}

def InRange (T : IntegralType) (n : Int) : Prop :=
  if T.signed then -2 ^ (T.width.bits - 1) ≤ n ∧ n < 2 ^ (T.width.bits - 1)
  else 0 ≤ n ∧ n < 2 ^ T.width.bits

/-- The number is beyond what the conversion returns, and the token is refused. -/
def Beyond (T : IntegralType) (s : Scan) : Prop :=
  if T.signed then s.number < -2 ^ 63 ∨ 2 ^ 63 ≤ s.number else 2 ^ 64 ≤ magnitude s.digits

instance (T : IntegralType) (s : Scan) : Decidable (T.Beyond s) := by
  unfold Beyond
  infer_instance

/-- Only the numbers of the type are kept by an assignment. -/
theorem assign_eq_iff : T.assign n = n ↔ T.InRange n := by
  rcases T with ⟨_ | _, _ | _ | _ | _⟩ <;>
    simp [assign, InRange, Width.bits, Int.bmod_eq_iff] <;> omega

/-- The 64 bits in which `stoull` negates a number have those of every parameter. -/
theorem assign_emod {T : IntegralType} (hT : T.signed = false) :
    T.assign (n % 2 ^ 64) = T.assign n := by
  have hbits : (2 : Int) ^ T.width.bits ∣ 2 ^ 64 := by
    cases T.width <;> decide
  simp only [assign, hT, Bool.false_eq_true, if_false]
  exact Int.emod_emod_of_dvd n hbits

/-- A parameter refuses what has no number, or one beyond the 64 bits of its conversion, and
gets any other number modulo two to its width. -/
theorem tryConsume_eq :
    T.tryConsume args =
      if (scan (firstToken args)).digits = [] ∨ T.Beyond (scan (firstToken args)) then none
      else some (T.assign (scan (firstToken args)).number, (tokenize args).2) := by
  cases hT : T.signed with
  | true =>
      simp only [tryConsume, hT, if_true, stoll, Beyond]
      by_cases hdigits : (scan (firstToken args)).digits = []
      · simp [hdigits]
      · by_cases hrange : (scan (firstToken args)).number < -2 ^ 63 ∨
            2 ^ 63 ≤ (scan (firstToken args)).number
        · simp only [hdigits, hrange, if_true, if_false, or_true]
        · simp only [hdigits, hrange, if_false, or_self]
  | false =>
      simp only [tryConsume, hT, Bool.false_eq_true, if_false, stoull, Beyond]
      by_cases hdigits : (scan (firstToken args)).digits = []
      · simp [hdigits]
      · by_cases hrange : 2 ^ 64 ≤ magnitude (scan (firstToken args)).digits
        · simp only [hdigits, hrange, if_true, if_false, or_true]
        · simp only [hdigits, hrange, if_false, or_self, assign_emod hT]

/-- A success is the number of a literal of the type, and no literal for another number is
one. -/
structure Unaltered (T : IntegralType) (args : List Char) : Prop where
  success : ∀ v next, T.tryConsume args = some (v, next) →
    Denotes (firstToken args) v ∧ T.InRange v
  refused : ∀ n, Denotes (firstToken args) n → ¬T.InRange n → T.tryConsume args = none

/-- A number of the type with no white space before it and nothing after it. -/
structure Plain (T : IntegralType) (s : Scan) : Prop where
  space : s.space = []
  rest : s.rest = []
  inRange : T.InRange s.number

theorem plain_of_success (h : T.Unaltered args)
    (hdigits : (scan (firstToken args)).digits ≠ [])
    (hbeyond : ¬T.Beyond (scan (firstToken args))) :
    T.Plain (scan (firstToken args)) := by
  have hsome : T.tryConsume args =
      some (T.assign (scan (firstToken args)).number, (tokenize args).2) := by
    rw [tryConsume_eq, if_neg (by simp [hdigits, hbeyond])]
  obtain ⟨hdenotes, hrange⟩ := h.success _ _ hsome
  obtain ⟨hwhole, hnumber⟩ := denotes_iff.1 hdenotes
  exact ⟨hwhole.space, hwhole.rest, assign_eq_iff.1 hnumber.symm⟩

theorem unaltered_of_plain (h : T.Plain (scan (firstToken args))) : T.Unaltered args where
  success v next hv := by
    rw [tryConsume_eq] at hv
    split at hv
    · exact absurd hv (by simp)
    · rename_i hnot
      obtain ⟨hdigits, -⟩ := not_or.1 hnot
      obtain ⟨rfl, -⟩ := Prod.mk.inj (Option.some.inj hv)
      rw [assign_eq_iff.2 h.inRange]
      exact ⟨denotes_iff.2 ⟨⟨h.space, hdigits, h.rest⟩, rfl⟩, h.inRange⟩
  refused n hn hrange := by
    obtain ⟨-, rfl⟩ := denotes_iff.1 hn
    exact absurd h.inRange hrange

theorem unaltered_of_none (h : T.tryConsume args = none) : T.Unaltered args where
  success v next hv := by
    rw [h] at hv
    exact absurd hv (by simp)
  refused _ _ _ := h

/-- An argument arrives as the number it denotes, or is refused, exactly when the conversion
finds no number in it, or one beyond its 64 bits, or a number of the type and nothing around
it. -/
theorem unaltered_iff (T : IntegralType) (args : List Char) :
    T.Unaltered args ↔
      (scan (firstToken args)).digits = [] ∨ T.Beyond (scan (firstToken args)) ∨
        T.Plain (scan (firstToken args)) := by
  constructor
  · intro h
    by_cases hdigits : (scan (firstToken args)).digits = []
    · exact .inl hdigits
    · by_cases hbeyond : T.Beyond (scan (firstToken args))
      · exact .inr (.inl hbeyond)
      · exact .inr (.inr (plain_of_success h hdigits hbeyond))
  · rintro (h | h | h)
    · exact unaltered_of_none (by rw [tryConsume_eq, if_pos (.inl h)])
    · exact unaltered_of_none (by rw [tryConsume_eq, if_pos (.inr h)])
    · exact unaltered_of_plain h

/-- Three hundred is more than eight bits hold, and the parameter gets 44. -/
theorem three_hundred_is_altered :
    ¬(IntegralType.mk false .w8).Unaltered "300 7".toList := by
  intro h
  have hv : (IntegralType.mk false .w8).tryConsume "300 7".toList = some (44, ['7']) := by decide
  exact absurd (denotes_iff.1 (h.success _ _ hv).1).2 (by decide)

end IntegralType

end Sunstrider.Chat
