import Sunstrider.Chat.Hyperlinks

/-!
# What is a link

`Link` is the grammar of a link, with its parts and what may be in them. `ParseHyperlink`
succeeds exactly on the strings that begin with the text of a link, and returns the parts of
that link and the place behind it (`reads_parseHyperlink`); the judgment is put together from
those of the scanner's steps, and says too that no read is behind the nul.

`Message` is the grammar of a message. The second pass over it accepts exactly the messages
(`checkLink_ends`). The first one has different rules and cannot refuse any of them
(`checkControl_ends`), so both together accept just what the second accepts.
-/

namespace Sunstrider.Chat

open Lib Lib.Scanner

/-! ## Colours -/

def isHexDigit (c : Char) : Bool := ('0' ≤ c ∧ c ≤ '9') ∨ ('a' ≤ c ∧ c ≤ 'f')

def hexDigitValue (c : Char) : Nat :=
  if c ≤ '9' then c.toNat - '0'.toNat else 10 + (c.toNat - 'a'.toNat)

/-- The value of hexadecimal digits, the highest first. -/
def hexValue (digits : List Char) : Nat :=
  digits.foldl (fun value c => 16 * value + hexDigitValue c) 0

/-- The digits are the characters from 48 to 57 and from 97 to 102. -/
theorem toNat_toHex (c : Char) :
    (toHex c).toNat =
      if 48 ≤ c.toNat ∧ c.toNat ≤ 57 then c.toNat - 32
      else if 97 ≤ c.toNat ∧ c.toNat ≤ 102 then c.toNat - 71 else 0 := by
  have hdec : '0' ≤ c ∧ c ≤ '9' ↔ 48 ≤ c.toNat ∧ c.toNat ≤ 57 := Iff.rfl
  have hlet : 'a' ≤ c ∧ c ≤ 'f' ↔ 97 ≤ c.toNat ∧ c.toNat ≤ 102 := Iff.rfl
  have h0 : '0'.toNat = 48 := rfl
  have ha : 'a'.toNat = 97 := rfl
  simp only [toHex, hdec, hlet, h0, ha]
  split
  · rw [UInt8.toNat_ofNat']
    omega
  · split
    · rw [UInt8.toNat_ofNat']
      omega
    · rfl

theorem isHexDigit_iff {c : Char} :
    isHexDigit c = true ↔
      (48 ≤ c.toNat ∧ c.toNat ≤ 57) ∨ (97 ≤ c.toNat ∧ c.toNat ≤ 102) :=
  decide_eq_true_iff

theorem hexDigitValue_eq (c : Char) :
    hexDigitValue c = if c.toNat ≤ 57 then c.toNat - 48 else 10 + (c.toNat - 97) := rfl

theorem toHex_ne_zero_iff {c : Char} : toHex c ≠ 0 ↔ isHexDigit c = true := by
  rw [isHexDigit_iff, ne_eq, ← UInt8.toNat_inj, toNat_toHex]
  have h0 : (0 : UInt8).toNat = 0 := rfl
  split
  · omega
  · split <;> omega

theorem and_low (hex : UInt8) : (hex &&& 0xf).toNat = hex.toNat % 16 := by
  rw [UInt8.toNat_and]
  exact Nat.and_two_pow_sub_one_eq_mod hex.toNat 4

theorem toHex_value {c : Char} (hc : isHexDigit c) :
    (toHex c &&& 0xf).toNat = hexDigitValue c := by
  rw [isHexDigit_iff] at hc
  rw [and_low, toNat_toHex, hexDigitValue_eq]
  rcases hc with hc | hc
  · rw [if_pos hc, if_pos hc.2]
    omega
  · rw [if_neg (by omega), if_pos hc, if_neg (by omega)]
    omega

theorem hexDigitValue_lt {c : Char} (hc : isHexDigit c) : hexDigitValue c < 16 := by
  rw [← toHex_value hc, and_low]
  omega

/-- One more digit, as long as there is room for it. -/
theorem color_step {color : UInt32} {c : Char} (hcolor : color.toNat < 2 ^ 28) (hc : isHexDigit c) :
    (color <<< 4 ||| (toHex c &&& 0xf).toUInt32).toNat =
      16 * color.toNat + hexDigitValue c := by
  have hshift : (color <<< 4).toNat = color.toNat <<< 4 := by
    rw [UInt32.toNat_shiftLeft, Nat.shiftLeft_eq, Nat.shiftLeft_eq]
    exact Nat.mod_eq_of_lt (by simp; omega)
  have hdigit : (toHex c &&& 0xf).toUInt32.toNat = hexDigitValue c := by
    rw [UInt8.toNat_toUInt32, toHex_value hc]
  have hlow : hexDigitValue c < 2 ^ 4 := hexDigitValue_lt hc
  rw [UInt32.toNat_or, hshift, hdigit, ← Nat.shiftLeft_add_eq_or_of_lt hlow, Nat.shiftLeft_eq]
  omega

theorem hexValue_lt {hex : List Char} (value : Nat) (h : ∀ c ∈ hex, isHexDigit c) :
    hex.foldl (fun value c => 16 * value + hexDigitValue c) value <
      16 ^ hex.length * (value + 1) := by
  induction hex generalizing value with
  | nil => simp
  | cons c hex ih =>
      obtain ⟨hc, hhex⟩ := List.forall_mem_cons.1 h
      have hdigit := hexDigitValue_lt hc
      calc _ < 16 ^ hex.length * (16 * value + hexDigitValue c + 1) := ih _ hhex
        _ ≤ 16 ^ hex.length * (16 * (value + 1)) := Nat.mul_le_mul_left _ (by omega)
        _ = 16 ^ (hex.length + 1) * (value + 1) := by rw [Nat.pow_succ, Nat.mul_assoc]

variable {n : Nat} {color : UInt32}

/-- What the loop makes of digits after those that are in the colour. -/
theorem reads_readColor (hcolor : color.toNat < 2 ^ (4 * (8 - n))) (hn : n ≤ 8) :
    Reads (readColor n color) fun color' str rest =>
      ∃ hex, hex.length = n ∧ (∀ c ∈ hex, isHexDigit c) ∧ str = hex ++ rest ∧
        color'.toNat = hex.foldl (fun value c => 16 * value + hexDigitValue c) color.toNat := by
  induction n generalizing color with
  | zero =>
      refine (reads_pure color).congr fun color' str rest => ?_
      constructor
      · rintro ⟨rfl, rfl⟩
        exact ⟨[], rfl, by simp, rfl, rfl⟩
      · rintro ⟨hex, hlength, -, rfl, hvalue⟩
        obtain rfl := List.eq_nil_of_length_eq_zero hlength
        exact ⟨UInt32.toNat_inj.1 hvalue, rfl⟩
  | succ n ih =>
      have hroom : 2 ^ (4 * (8 - n)) = 16 * 2 ^ (4 * (8 - (n + 1))) := by
        rw [show 4 * (8 - n) = 4 + 4 * (8 - (n + 1)) by omega, Nat.pow_add]
      have hsmall : color.toNat < 2 ^ 28 :=
        Nat.lt_of_lt_of_le hcolor (Nat.pow_le_pow_right (by omega) (by omega))
      have hround : ∀ c, Reads (if toHex c ≠ 0 then
          readColor n (color <<< 4 ||| (toHex c &&& 0xf).toUInt32) else giveUp)
          fun color' str rest => isHexDigit c ∧ ∃ hex, hex.length = n ∧
            (∀ c ∈ hex, isHexDigit c) ∧ str = hex ++ rest ∧ color'.toNat =
              hex.foldl (fun value c => 16 * value + hexDigitValue c)
                (16 * color.toNat + hexDigitValue c) := by
        intro c
        by_cases hc : isHexDigit c
        · have hstep := color_step hsmall hc
          have hdigit := hexDigitValue_lt hc
          rw [if_pos (toHex_ne_zero_iff.2 hc), ← hstep]
          exact (ih (by omega) (by omega)).congr fun color' str rest => by simp [hc]
        · rw [if_neg fun h => hc (toHex_ne_zero_iff.1 h)]
          exact reads_giveUp.congr fun color' str rest => by simp [hc]
      refine (reads_next (if_neg (by decide)) hround).congr fun color' str rest => ?_
      constructor
      · rintro ⟨c, cs, rfl, hc, hex, hlength, hdigits, rfl, hvalue⟩
        exact ⟨c :: hex, congrArg (· + 1) hlength, List.forall_mem_cons.2 ⟨hc, hdigits⟩, rfl,
          hvalue⟩
      · rintro ⟨hex, hlength, hdigits, rfl, hvalue⟩
        obtain ⟨c, hex, rfl⟩ := List.exists_cons_of_length_eq_add_one hlength
        obtain ⟨hc, hdigits⟩ := List.forall_mem_cons.1 hdigits
        exact ⟨c, hex ++ rest, rfl, hc, hex, Nat.succ.inj hlength, hdigits, rfl, hvalue⟩

/-! ## Links -/

/-- A link: the digits of its colour, its tag, its data if there is a `:` behind the tag, and
its text. -/
structure Link where
  hex : List Char
  tag : List Char
  data : Option (List Char)
  text : List Char
  hex_length : hex.length = 8
  hex_digits : ∀ c ∈ hex, isHexDigit c
  tag_chars : ∀ c ∈ tag, c ≠ '|' ∧ c ≠ ':'
  data_chars : ∀ d, data = some d → ∀ c ∈ d, c ≠ '|'
  text_chars : ∀ c ∈ text, c ≠ '|' ∧ c ≠ ']'

namespace Link

def dataPart : Option (List Char) → List Char
  | none => []
  | some data => ':' :: data

/-- The link as it is written. -/
def written (link : Link) : List Char :=
  '|' :: 'c' :: link.hex ++ ('|' :: 'H' :: (link.tag ++ dataPart link.data)) ++
    ('|' :: 'h' :: '[' :: link.text) ++ "]|h|r".toList

theorem written_append (link : Link) (rest : List Char) :
    link.written ++ rest = '|' :: 'c' :: (link.hex ++ '|' :: 'H' :: (link.tag ++
      (dataPart link.data ++ '|' :: 'h' :: '[' ::
        (link.text ++ ']' :: '|' :: 'h' :: '|' :: 'r' :: rest)))) := by
  simp [written]

/-- What is to be returned for it, where `rest` is behind it. -/
def info (link : Link) (rest : List Char) : HyperlinkInfo where
  next := .at rest
  color := UInt32.ofNat (hexValue link.hex)
  tag := link.tag
  data := link.data.getD []
  text := link.text

end Link

variable {str rest tag data text mid : List Char}

theorem skipped_tag :
    Skipped tagTurn tag str mid ↔
      (∀ c ∈ tag, c ≠ '|' ∧ c ≠ ':') ∧
        (str = tag ∧ mid = [] ∨ (∃ cs, str = tag ++ '|' :: cs ∧ mid = '|' :: cs) ∨
          str = tag ++ ':' :: mid) := by
  have hon : ∀ c, tagTurn c = .on ↔ c ≠ '|' ∧ c ≠ ':' := by grind [tagTurn]
  have hbefore : ∀ c, tagTurn c = .endBefore ↔ c = '|' := by grind [tagTurn]
  have hbehind : ∀ c, tagTurn c = .endBehind ↔ c = ':' := by grind [tagTurn]
  simp [Skipped, hon, hbefore, hbehind]

theorem skipped_data :
    Skipped dataTurn data str mid ↔
      (∀ c ∈ data, c ≠ '|') ∧ (str = data ∧ mid = [] ∨ str = data ++ '|' :: mid) := by
  have hon : ∀ c, dataTurn c = .on ↔ c ≠ '|' := by grind [dataTurn]
  have hbefore : ∀ c, dataTurn c ≠ .endBefore := by grind [dataTurn]
  have hbehind : ∀ c, dataTurn c = .endBehind ↔ c = '|' := by grind [dataTurn]
  simp [Skipped, hon, hbefore, hbehind]

theorem skipped_text :
    Skipped textTurn text str mid ↔
      (∀ c ∈ text, c ≠ '|' ∧ c ≠ ']') ∧ (str = text ∧ mid = [] ∨ str = text ++ ']' :: mid) := by
  have hon : ∀ c, textTurn c = .on ↔ c ≠ '|' ∧ c ≠ ']' := by grind [textTurn]
  have hbefore : ∀ c, textTurn c ≠ .endBefore := by grind [textTurn]
  have hbehind : ∀ c, textTurn c = .endBehind ↔ c = ']' := by grind [textTurn]
  simp [Skipped, hon, hbefore, hbehind]

/-- The two loops after `|H` leave off behind the pipe that ends the data, or the tag where
there is no `:`. -/
theorem skipped_tag_data {c : Char} :
    (Skipped tagTurn tag str mid ∧ Skipped dataTurn data mid (c :: rest)) ↔
      (∀ c ∈ tag, c ≠ '|' ∧ c ≠ ':') ∧
        (data = [] ∧ mid = '|' :: c :: rest ∧ str = tag ++ mid ∨
          (∀ c ∈ data, c ≠ '|') ∧ mid = data ++ '|' :: c :: rest ∧ str = tag ++ ':' :: mid) := by
  rw [skipped_tag, skipped_data]
  constructor
  · rintro ⟨⟨htag, htagEnd⟩, hdata, ⟨-, hdataEnd⟩ | hdataEnd⟩
    · exact absurd hdataEnd (by simp)
    · refine ⟨htag, ?_⟩
      rcases htagEnd with ⟨-, rfl⟩ | ⟨cs, hstr, rfl⟩ | hstr
      · exact absurd hdataEnd (by simp)
      · -- The pipe that ends the tag ends the data too, before it has begun.
        have hnone : data = [] := by
          cases data with
          | nil => rfl
          | cons d ds =>
              exact absurd (List.cons.inj hdataEnd).1.symm (hdata d List.mem_cons_self)
        subst hnone
        exact .inl ⟨rfl, hdataEnd, hstr⟩
      · exact .inr ⟨hdata, hdataEnd, hstr⟩
  · rintro ⟨htag, ⟨rfl, rfl, rfl⟩ | ⟨hdata, rfl, rfl⟩⟩
    · exact ⟨⟨htag, .inr (.inl ⟨_, rfl, rfl⟩)⟩, by simp, .inr rfl⟩
    · exact ⟨⟨htag, .inr (.inr rfl)⟩, hdata, .inr rfl⟩

theorem reads_parseHyperlink :
    Reads parseHyperlink fun info str rest =>
      ∃ link : Link, str = link.written ++ rest ∧ info = link.info rest := by
  unfold parseHyperlink
  refine ((Reads.eat_bind (by decide) <| Reads.eat_bind (by decide) <|
    (reads_readColor (by decide) (by decide)).bind fun color =>
    Reads.eat_bind (by decide) <| Reads.eat_bind (by decide) <|
    reads_position_bind fun tagStart => Reads.skip_bind fun tagLength =>
    reads_position_bind fun dataStart => Reads.skip_bind fun dataLength =>
    Reads.eat_bind (by decide) <| Reads.eat_bind (by decide) <|
    reads_position_bind fun textStart => Reads.skip_bind fun textLength =>
    Reads.eat_bind (by decide) <| Reads.eat_bind (by decide) <|
    Reads.eat_bind (by decide) <| Reads.eat_bind (by decide) <|
    reads_position_bind fun next => reads_pure (HyperlinkInfo.mk (.at next) color
      ((Ptr.at tagStart).take tagLength) ((Ptr.at dataStart).take dataLength)
      ((Ptr.at textStart).take textLength)))).congr fun info str rest => ?_
  constructor
  · rintro ⟨_, rfl, _, rfl, color, _, ⟨hex, hlength, hdigits, rfl, hcolor⟩, _, rfl, tagStart, rfl,
      tag, dataStart, hskipTag, data, _, hskipData, _, rfl, textStart, rfl, text, _, hskipText,
      _, rfl, _, rfl, _, rfl, _, rfl, rfl, rfl⟩
    obtain ⟨htag, htagData⟩ := skipped_tag_data.1 ⟨hskipTag, hskipData⟩
    obtain ⟨htext, htextEnd⟩ := skipped_text.1 hskipText
    obtain rfl := htextEnd.resolve_left fun h => absurd h.2 (by simp)
    have hvalue : color = UInt32.ofNat (hexValue hex) := by
      rw [← UInt32.ofNat_toNat (x := color), hcolor]
      rfl
    rcases htagData with ⟨rfl, rfl, rfl⟩ | ⟨hdata, rfl, rfl⟩
    · refine ⟨⟨hex, tag, none, text, hlength, hdigits, htag, by simp, htext⟩, ?_, ?_⟩
      · simp [Link.written, Link.dataPart]
      · simp [Link.info, hvalue, Ptr.take]
    · refine ⟨⟨hex, tag, some data, text, hlength, hdigits, htag, by simpa using hdata, htext⟩,
        ?_, ?_⟩
      · simp [Link.written, Link.dataPart]
      · simp [Link.info, hvalue, Ptr.take]
  · rintro ⟨link, rfl, rfl⟩
    have hcolor : (UInt32.ofNat (hexValue link.hex)).toNat = hexValue link.hex :=
      UInt32.toNat_ofNat_of_lt' (by
        have hlt := hexValue_lt 0 link.hex_digits
        rw [link.hex_length] at hlt
        exact hlt)
    rw [Link.written_append]
    obtain ⟨hex, tag, data, text, hlength, hdigits, htag, hdata, htext⟩ := link
    cases data with
    | none =>
        obtain ⟨hskipTag, hskipData⟩ := skipped_tag_data.2 ⟨htag, .inl ⟨rfl, rfl, rfl⟩⟩
        refine ⟨_, rfl, _, rfl, _, _, ⟨hex, hlength, hdigits, rfl, hcolor⟩, _, rfl, _, rfl,
          tag, _, hskipTag, [], _, hskipData, _, rfl, _, rfl, text, _,
          skipped_text.2 ⟨htext, .inr rfl⟩, _, rfl, _, rfl, _, rfl, _, rfl, ?_, rfl⟩
        simp [Link.info, Ptr.take]
    | some data =>
        obtain ⟨hskipTag, hskipData⟩ :=
          skipped_tag_data.2 ⟨htag, .inr ⟨hdata data rfl, rfl, rfl⟩⟩
        refine ⟨_, rfl, _, rfl, _, _, ⟨hex, hlength, hdigits, rfl, hcolor⟩, _, rfl, _, rfl,
          tag, _, hskipTag, data, _, hskipData, _, rfl, _, rfl, text, _,
          skipped_text.2 ⟨htext, .inr rfl⟩, _, rfl, _, rfl, _, rfl, _, rfl, ?_, rfl⟩
        simp [Link.info, Ptr.take]

/-! ## Messages -/

/-- Characters other than pipes, escaped pipes, and links that are valid. -/
inductive Message (valid : HyperlinkInfo → Bool) : List Char → Prop
  | nil : Message valid []
  | char {c : Char} {str : List Char} (hc : c ≠ '|') (hstr : Message valid str) :
      Message valid (c :: str)
  | pipe {str : List Char} (hstr : Message valid str) : Message valid ('|' :: '|' :: str)
  | link {link : Link} {str : List Char} (hlink : valid (link.info str))
      (hstr : Message valid str) : Message valid (link.written ++ str)

variable {valid : HyperlinkInfo → Bool} {f : List Char → Except Stop (List Char)}
  {r : Except Stop (List Char)}

theorem message_cons {c : Char} (hc : c ≠ '|') : Message valid (c :: str) ↔ Message valid str := by
  constructor
  · intro h
    generalize hs : c :: str = s at h
    cases h with
    | nil => cases hs
    | char _ hstr => cases hs; exact hstr
    | pipe => cases hs; exact absurd rfl hc
    | link =>
        rw [Link.written_append] at hs
        exact absurd (List.cons.inj hs).1 hc
  · exact .char hc

/-- What is before the first pipe does not matter. -/
theorem message_findPipe (valid : HyperlinkInfo → Bool) (str : List Char) :
    Message valid (findPipe str) ↔ Message valid str := by
  induction str with
  | nil => rfl
  | cons c str ih =>
      by_cases hc : c = '|'
      · simp [findPipe, hc]
      · rw [message_cons hc, ← ih]
        simp [findPipe, hc]

theorem message_pipe : Message valid ('|' :: '|' :: str) ↔ Message valid str := by
  constructor
  · intro h
    generalize hs : '|' :: '|' :: str = s at h
    cases h with
    | nil => cases hs
    | char hc => cases hs; exact absurd rfl hc
    | pipe hstr => cases hs; exact hstr
    | link =>
        rw [Link.written_append] at hs
        cases hs
  · exact .pipe

/-- A pipe with no other behind it begins a link. -/
theorem message_link (valid : HyperlinkInfo → Bool) (str : List Char)
    (h : ∀ rest, str ≠ '|' :: rest) :
    Message valid ('|' :: str) ↔
      ∃ link : Link, ∃ rest, '|' :: str = link.written ++ rest ∧ valid (link.info rest) ∧
        Message valid rest := by
  constructor
  · intro hmessage
    generalize hs : '|' :: str = s at hmessage
    cases hmessage with
    | nil => cases hs
    | char hc => cases hs; exact absurd rfl hc
    | pipe => cases hs; exact absurd rfl (h _)
    | link hlink hstr => exact ⟨_, _, rfl, hlink, hstr⟩
  · rintro ⟨link, rest, heq, hlink, hrest⟩
    rw [heq]
    exact .link hlink hrest

theorem findPipe_suffix (str : List Char) : findPipe str <:+ str := List.dropWhile_suffix _

theorem findPipe_of_hasPipe (h : hasPipe str = true) : ∃ rest, findPipe str = '|' :: rest := by
  induction str with
  | nil => cases h
  | cons c str ih =>
      by_cases hc : c = '|'
      · exact ⟨str, by simp [findPipe, hc]⟩
      · have hfind : findPipe (c :: str) = findPipe str := by simp [findPipe, hc]
        rw [hasPipe, hfind] at h
        rw [hfind]
        exact ih h

theorem message_of_not_hasPipe (h : hasPipe str = false) : Message valid str := by
  have hnil : findPipe str = [] := by simpa [hasPipe] using h
  rw [← message_findPipe, hnil]
  exact .nil

/-- What a round of the second pass does at a pipe: it goes on behind an escaped pipe or a
valid link, to where the message must go on too, or it refuses what no message has. -/
theorem checkLink_step (valid : HyperlinkInfo → Bool) (hstr : nul ∉ str) (hpipe : hasPipe str = true) :
    (∃ rest, checkLink valid str = .ok rest ∧ rest <:+ str ∧ rest.length < str.length ∧
      (Message valid str ↔ Message valid rest)) ∨
    checkLink valid str = .error .refused ∧ ¬Message valid str := by
  obtain ⟨after, hfind⟩ := findPipe_of_hasPipe hpipe
  have hsuffix : '|' :: after <:+ str := hfind ▸ findPipe_suffix str
  have hshorter : ∀ rest, rest <:+ after → rest <:+ str ∧ rest.length < str.length :=
    fun rest h => by
      have hle := h.length_le
      have hlt := hsuffix.length_le
      rw [List.length_cons] at hlt
      exact ⟨h.trans ((List.suffix_cons _ _).trans hsuffix), by omega⟩
  rw [← message_findPipe valid str, hfind]
  by_cases hafter : ∃ rest, after = '|' :: rest
  · obtain ⟨rest, rfl⟩ := hafter
    have hround : checkLink valid str = .ok rest := by simp [checkLink, afterPipe, hfind]
    obtain ⟨hrest, hlt⟩ := hshorter rest (List.suffix_cons _ _)
    exact .inl ⟨rest, hround, hrest, hlt, message_pipe⟩
  · have hnot : afterPipe str ≠ '|' := by
      rw [afterPipe, hfind]
      cases after with
      | nil => decide
      | cons c rest => exact fun hc => hafter ⟨rest, by rw [← hc]; rfl⟩
    have hlink := message_link valid after fun rest h => hafter ⟨rest, h⟩
    obtain ⟨parsed, hrun, hparsed⟩ :=
      reads_parseHyperlink.run ('|' :: after) fun h => hstr (hsuffix.mem h)
    cases parsed with
    | none =>
        refine .inr ⟨by rw [checkLink, if_neg hnot, hfind, hrun], fun hmessage => ?_⟩
        obtain ⟨link, rest, heq, -, -⟩ := hlink.1 hmessage
        exact absurd ((hparsed _ (.at rest)).2 ⟨rest, rfl, link, heq, rfl⟩) (by simp)
    | some parsed =>
        obtain ⟨info, pos⟩ := parsed
        obtain ⟨rest, rfl, link, heq, rfl⟩ := (hparsed info pos).1 rfl
        have hround : checkLink valid str =
            if valid (link.info rest) then .ok rest else .error .refused := by
          rw [checkLink, if_neg hnot, hfind, hrun]
          rfl
        -- A string begins with one link only.
        have honly : ∀ link' : Link, ∀ rest', '|' :: after = link'.written ++ rest' →
            link'.info rest' = link.info rest ∧ rest' = rest := by
          intro link' rest' heq'
          have hsame := (hparsed _ (.at rest')).2 ⟨rest', rfl, link', heq', rfl⟩
          simp only [Option.some.injEq, Prod.mk.injEq, Ptr.at.injEq] at hsame
          exact ⟨hsame.1.symm, hsame.2.symm⟩
        by_cases hvalid : valid (link.info rest) = true
        · rw [Link.written_append] at heq
          obtain ⟨hrest, hlt⟩ := hshorter rest (by
            rw [(List.cons.inj heq).2]
            refine (List.suffix_append (link.hex ++ '|' :: 'H' :: (link.tag ++
              (Link.dataPart link.data ++ '|' :: 'h' :: '[' ::
                (link.text ++ "]|h|r".toList)))) rest).trans ?_
            simp)
          refine .inl ⟨rest, by rw [hround, if_pos hvalid], hrest, hlt, ?_⟩
          rw [hlink]
          constructor
          · rintro ⟨link', rest', heq', -, hmessage⟩
            rw [(honly link' rest' heq').2] at hmessage
            exact hmessage
          · intro hmessage
            exact ⟨link, rest, by rw [Link.written_append, heq], hvalid, hmessage⟩
        · refine .inr ⟨by rw [hround, if_neg hvalid], fun hmessage => ?_⟩
          obtain ⟨link', rest', heq', hvalid', -⟩ := hlink.1 hmessage
          rw [(honly link' rest' heq').1] at hvalid'
          exact hvalid hvalid'

/-- The second pass comes to the end of a message, and refuses what is none. -/
theorem checkLink_ends (valid : HyperlinkInfo → Bool) (hstr : nul ∉ str) :
    ∃ r, LoopEnds hasPipe (checkLink valid) str r ∧
      (Message valid str ∧ (∃ s, r = .ok s) ∨ ¬Message valid str ∧ r = .error .refused) := by
  generalize hlength : str.length = n
  induction n using Nat.strongRecOn generalizing str with
  | ind n ih =>
      cases hpipe : hasPipe str with
      | false => exact ⟨_, .exit hpipe, .inl ⟨message_of_not_hasPipe hpipe, _, rfl⟩⟩
      | true =>
          rcases checkLink_step valid hstr hpipe with
            ⟨rest, hround, hsuffix, hlt, hiff⟩ | ⟨hround, hnot⟩
          · obtain ⟨r, hrest, hr⟩ := ih rest.length (by omega) (fun h => hstr (hsuffix.mem h)) rfl
            exact ⟨r, .round hpipe hround hrest, by rwa [hiff]⟩
          · exact ⟨_, .fail hpipe hround, .inr ⟨hnot, rfl⟩⟩

/-- A control sequence behind characters that are no pipes. -/
theorem checkControl_round {plain : List Char} {c : Char} (hplain : '|' ∉ plain)
    (hc : isControl c = true) (hrest : ∃ s, LoopEnds hasPipe checkControl rest (.ok s)) :
    ∃ s, LoopEnds hasPipe checkControl (plain ++ '|' :: c :: rest) (.ok s) := by
  obtain ⟨s, hrest⟩ := hrest
  have hfind : findPipe (plain ++ '|' :: c :: rest) = '|' :: c :: rest := by
    rw [findPipe, List.dropWhile_append_of_pos fun d hd => by
      simpa using fun h : d = '|' => hplain (h ▸ hd)]
    simp
  refine ⟨s, .round ?_ ?_ hrest⟩
  · rw [hasPipe, hfind]
    rfl
  · rw [checkControl, afterPipe, hfind]
    exact if_pos hc

/-- The first pass comes to the end of every message. -/
theorem checkControl_ends (h : Message valid str) :
    ∃ s, LoopEnds hasPipe checkControl str (.ok s) := by
  induction h with
  | nil => exact ⟨_, .exit rfl⟩
  | @char c str hc _ ih =>
      obtain ⟨s, hs⟩ := ih
      have hfind : findPipe (c :: str) = findPipe str := by simp [findPipe, hc]
      cases hs with
      | exit hpipe => exact ⟨_, .exit (by rw [hasPipe, hfind]; exact hpipe)⟩
      | round hpipe hround hrest =>
          refine ⟨s, .round (by rw [hasPipe, hfind]; exact hpipe) ?_ hrest⟩
          rw [checkControl, afterPipe, hfind]
          exact hround
  | pipe _ ih => exact checkControl_round (List.not_mem_nil : '|' ∉ []) rfl ih
  | @link link str _ _ ih =>
      have hhex : '|' ∉ link.hex := fun h => absurd (link.hex_digits _ h) (by decide)
      have htag : '|' ∉ link.tag ++ Link.dataPart link.data := by
        rw [List.mem_append, not_or]
        refine ⟨fun h => (link.tag_chars _ h).1 rfl, ?_⟩
        cases hdata : link.data with
        | none => exact List.not_mem_nil
        | some data => simpa [Link.dataPart] using fun h => link.data_chars _ hdata _ h rfl
      have htext : '|' ∉ '[' :: (link.text ++ [']']) := by
        simpa using fun h => (link.text_chars _ h).1 rfl
      have hreset := checkControl_round (List.not_mem_nil : '|' ∉ []) (by rfl : isControl 'r') ih
      have hend := checkControl_round htext (by rfl : isControl 'h') hreset
      have hshown := checkControl_round htag (by rfl : isControl 'h') hend
      have hdata := checkControl_round hhex (by rfl : isControl 'H') hshown
      have hcolor :=
        checkControl_round (List.not_mem_nil : '|' ∉ []) (by rfl : isControl 'c') hdata
      rw [Link.written_append]
      simpa using hcolor

/-- The first pass ends too, and cannot end with a read that must not be. -/
theorem exists_checkControl_ends (str : List Char) :
    ∃ r, LoopEnds hasPipe checkControl str r ∧ ∀ e, r = .error e → e = .refused := by
  have hround : ∀ s s', True → hasPipe s = true → checkControl s = .ok s' →
      True ∧ s'.length < s.length := by
    intro s s' _ hpipe hcheck
    obtain ⟨rest, hfind⟩ := findPipe_of_hasPipe hpipe
    have hlength := (findPipe_suffix s).length_le
    rw [checkControl] at hcheck
    split at hcheck
    · cases hcheck
      rw [hfind] at hlength ⊢
      rw [List.length_cons] at hlength
      rw [List.length_drop, List.length_cons]
      exact ⟨trivial, by omega⟩
    · cases hcheck
  obtain ⟨r, hr⟩ := LoopEnds.exists_of_rank Nat.lt_wfRel.wf List.length hround trivial
  refine ⟨r, hr, ?_⟩
  rintro e rfl
  refine LoopEnds.error_of (E := (· = .refused)) (fun s e he => ?_) hr
  rw [checkControl] at he
  split at he <;> cases he
  rfl

/-- Parsing accepts the strings that begin with a link, returns what it consists of and never
reads behind the nul; and a message is accepted if it is characters, escaped pipes and valid
links one after another. -/
theorem hyperlinks_exact (valid : HyperlinkInfo → Bool) {str : List Char} (hstr : nul ∉ str) :
    (∃ parsed, parseHyperlink (.at str) = .ok parsed ∧
      ∀ info pos, parsed = some (info, pos) ↔
        ∃ link : Link, ∃ rest, str = link.written ++ rest ∧ info = link.info rest ∧
          pos = .at rest) ∧
    ∃ n, ∀ fuel, n ≤ fuel → ∃ accepted, checkAllLinks fuel valid str = some (.ok accepted) ∧
      (accepted = true ↔ Message valid str) := by
  constructor
  · obtain ⟨parsed, hrun, hparsed⟩ := reads_parseHyperlink.run str hstr
    refine ⟨parsed, hrun, fun info pos => ?_⟩
    rw [hparsed]
    constructor
    · rintro ⟨rest, hpos, link, hlink, hinfo⟩
      exact ⟨link, rest, hlink, hinfo, hpos⟩
    · rintro ⟨link, rest, hlink, hinfo, hpos⟩
      exact ⟨rest, hpos, link, hlink, hinfo⟩
  · obtain ⟨control, hcontrol, hrefused⟩ := exists_checkControl_ends str
    obtain ⟨links, hlinks, hmessage⟩ := checkLink_ends valid hstr
    obtain ⟨n, hn⟩ := loop_of_ends hcontrol
    obtain ⟨n', hn'⟩ := loop_of_ends hlinks
    refine ⟨max n n', fun fuel hfuel => ?_⟩
    have hloop := hn fuel (by omega)
    have hloop' := hn' fuel (by omega)
    rcases hmessage with ⟨hmessage, s, rfl⟩ | ⟨hnot, rfl⟩
    · obtain ⟨s', hs'⟩ := checkControl_ends hmessage
      obtain rfl := hcontrol.unique hs'
      exact ⟨true, by rw [checkAllLinks, hloop, hloop'], iff_of_true rfl hmessage⟩
    · refine ⟨false, ?_, iff_of_false Bool.false_ne_true hnot⟩
      cases control with
      | ok s => rw [checkAllLinks, hloop, hloop']
      | error e =>
          obtain rfl := hrefused e rfl
          rw [checkAllLinks, hloop]

theorem hyperlinks_exact_of_a_title :
    let str := "50||50 |cff00ab12|Htitle:1|h[One]|h|r".toList
    nul ∉ str ∧ (∃ parsed, parseHyperlink (.at str) = .ok parsed) ∧
      ∃ n, ∀ fuel, n ≤ fuel → ∃ accepted,
        checkAllLinks fuel (fun _ => true) str = some (.ok accepted) := by
  obtain ⟨⟨parsed, hparsed, -⟩, n, hn⟩ := hyperlinks_exact (fun _ => true)
    (by decide : nul ∉ "50||50 |cff00ab12|Htitle:1|h[One]|h|r".toList)
  refine ⟨by decide, ⟨parsed, hparsed⟩, n, fun fuel hfuel => ?_⟩
  obtain ⟨accepted, hrun, -⟩ := hn fuel hfuel
  exact ⟨accepted, hrun⟩

end Sunstrider.Chat
