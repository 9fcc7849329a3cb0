import Mathlib.Tactic.SplitIfs
import PipelineShell.Text.Utf8

/-!
# What the decoder reads

A decoder reads one character after the other. `Shows` says what it should read in bytes that need
not be well-formed, without saying how: wherever no character begins, the longest part that could
begin one is shown as U+FFFD.

* `Utf8.next_eq_some_iff`: a character is read exactly where its encoding stands.
* `Utf8.decodeLossy_eq_iff`: what is read is what the bytes show.
* `Utf8.decodeLossy_append_ascii`: bytes can be read in two parts if the second one begins with an
  ASCII character.
-/

namespace PipelineShell.Utf8

/-! ## Encodings -/

def digit (v : Nat) : UInt8 := UInt8.ofNat (v % 64 + 0x80)

theorem toNat_ofNat_of_lt {v : Nat} (fits : v < 0x100) : (UInt8.ofNat v).toNat = v := by
  rw [UInt8.toNat_ofNat', Nat.mod_eq_of_lt fits]

theorem toNat_digit (v : Nat) : (digit v).toNat = v % 64 + 0x80 :=
  toNat_ofNat_of_lt (by omega)

theorem ofNat_eq {b : UInt8} {v : Nat} (same : b.toNat = v) : UInt8.ofNat v = b := by
  subst same
  exact UInt8.ofNat_toNat

theorem toNat_val_ofNat {v : Nat} (valid : v.isValidChar) : (Char.ofNat v).val.toNat = v := by
  rw [Char.ofNat, dif_pos valid]
  rfl

theorem exists_eq_ofNat (c : Char) : ∃ v : Nat, v.isValidChar ∧ c = Char.ofNat v :=
  ⟨c.toNat, c.valid, (Char.ofNat_toNat c).symm⟩

variable {v : Nat}

theorem encode_one (short : v < 0x80) :
    String.utf8EncodeChar (Char.ofNat v) = [UInt8.ofNat v] := by
  rw [String.utf8EncodeChar, toNat_val_ofNat (.inl (by omega)), if_pos (by omega)]

theorem encode_two (long : 0x80 ≤ v) (short : v < 0x800) :
    String.utf8EncodeChar (Char.ofNat v) = [UInt8.ofNat (v / 64 + 0xc0), digit v] := by
  rw [String.utf8EncodeChar, toNat_val_ofNat (.inl (by omega)), if_neg (by omega),
    if_pos (by omega), Nat.mod_eq_of_lt (by omega)]
  rfl

theorem encode_three (valid : v.isValidChar) (long : 0x800 ≤ v) (short : v < 0x10000) :
    String.utf8EncodeChar (Char.ofNat v) =
      [UInt8.ofNat (v / 64 / 64 + 0xe0), digit (v / 64), digit v] := by
  rw [String.utf8EncodeChar, toNat_val_ofNat valid, if_neg (by omega), if_neg (by omega),
    if_pos (by omega), Nat.mod_eq_of_lt (a := v / 4096) (by omega), Nat.div_div_eq_div_mul]
  rfl

theorem encode_four (valid : v.isValidChar) (long : 0x10000 ≤ v) :
    String.utf8EncodeChar (Char.ofNat v) =
      [UInt8.ofNat (v / 64 / 64 / 64 + 0xf0), digit (v / 64 / 64), digit (v / 64), digit v] := by
  rw [String.utf8EncodeChar, toNat_val_ofNat valid, if_neg (by omega), if_neg (by omega),
    if_neg (by omega), Nat.mod_eq_of_lt (a := v / 262144) (by omega)]
  simp only [Nat.div_div_eq_div_mul]
  rfl

/-! ## First bytes -/

inductive IsLead (b : UInt8) (l : Lead) : Prop
  | two (more : l.following = 1) (first : b.toNat = l.bits + 0xc0) (long : 2 ≤ l.bits)
    (short : l.bits < 32) (low : l.low.toNat = 0x80) (high : l.high.toNat = 0xbf)
  | three (more : l.following = 2) (first : b.toNat = l.bits + 0xe0) (short : l.bits < 16)
    (low : l.bits = 0 ∧ l.low.toNat = 0xa0 ∨ l.bits ≠ 0 ∧ l.low.toNat = 0x80)
    (high : l.bits = 13 ∧ l.high.toNat = 0x9f ∨ l.bits ≠ 13 ∧ l.high.toNat = 0xbf)
  | four (more : l.following = 3) (first : b.toNat = l.bits + 0xf0) (short : l.bits < 5)
    (low : l.bits = 0 ∧ l.low.toNat = 0x90 ∨ l.bits ≠ 0 ∧ l.low.toNat = 0x80)
    (high : l.bits = 4 ∧ l.high.toNat = 0x8f ∨ l.bits ≠ 4 ∧ l.high.toNat = 0xbf)

variable {b : UInt8} {l : Lead}

theorem isLead_of_lead? (found : lead? b = some l) : IsLead b l := by
  simp only [lead?, Bool.and_eq_true, decide_eq_true_eq, beq_iff_eq, UInt8.le_iff_toNat_le,
    ← UInt8.toNat_inj, UInt8.reduceToNat] at found
  split_ifs at found with range first first range first range first <;> cases found
  · refine .two rfl ?_ ?_ ?_ rfl rfl <;> dsimp only <;> omega
  · exact .three rfl first (by decide) (.inl ⟨rfl, rfl⟩) (.inr ⟨by decide, rfl⟩)
  · exact .three rfl first (by decide) (.inr ⟨by decide, rfl⟩) (.inl ⟨rfl, rfl⟩)
  · refine .three rfl ?_ ?_ (.inr ⟨?_, rfl⟩) (.inr ⟨?_, rfl⟩) <;> dsimp only <;> omega
  · exact .four rfl first (by decide) (.inl ⟨rfl, rfl⟩) (.inr ⟨by decide, rfl⟩)
  · refine .four rfl ?_ ?_ (.inr ⟨?_, rfl⟩) (.inr ⟨?_, rfl⟩) <;> dsimp only <;> omega
  · exact .four rfl first (by decide) (.inr ⟨by decide, rfl⟩) (.inl ⟨rfl, rfl⟩)

theorem exists_lead? (low : 0xc2 ≤ b.toNat) (high : b.toNat ≤ 0xf4) : ∃ l, lead? b = some l := by
  rw [← Option.isSome_iff_exists]
  simp only [lead?, Bool.and_eq_true, decide_eq_true_eq, beq_iff_eq, UInt8.le_iff_toNat_le,
    ← UInt8.toNat_inj, UInt8.reduceToNat]
  split_ifs <;> first | rfl | omega

theorem IsLead.bounds (leads : IsLead b l) :
    0x80 ≤ l.low.toNat ∧ l.low.toNat ≤ l.high.toNat ∧ l.high.toNat ≤ 0xbf := by
  cases leads <;> omega

theorem next_of_lead? (found : lead? b = some l) (rest : List UInt8) :
    next b rest = complete l.following l.low l.high l.bits rest := by
  have high : ¬ b < 0x80 := by
    simp only [UInt8.lt_iff_toNat_lt, UInt8.reduceToNat]
    cases isLead_of_lead? found <;> omega
  rw [next, if_neg high, found]

/-! ## Completing a character -/

variable {n bits : Nat} {low high : UInt8} {bytes rest left : List UInt8} {c : Char}

theorem isContinuation_iff :
    isContinuation low high b = true ↔ low.toNat ≤ b.toNat ∧ b.toNat ≤ high.toNat := by
  simp [isContinuation, UInt8.le_iff_toNat_le]

theorem isContinuation_digit (v : Nat) : isContinuation 0x80 0xbf (digit v) = true := by
  simp only [isContinuation_iff, toNat_digit, UInt8.reduceToNat]
  omega

theorem complete_digit (continues : isContinuation low high (digit v) = true)
    (rest : List UInt8) :
    complete (n + 1) low high (v / 64) (digit v :: rest) = complete n 0x80 0xbf v rest := by
  have value : v / 64 * 64 + ((digit v).toNat - 0x80) = v := by
    rw [toNat_digit]
    omega
  rw [complete, if_pos continues, value]

theorem digit_of_complete (above : 0x80 ≤ low.toNat) (below : high.toNat ≤ 0xbf)
    (completed : complete (n + 1) low high bits bytes = (some c, left)) :
    ∃ v rest, v / 64 = bits ∧ bytes = digit v :: rest ∧ low.toNat ≤ v % 64 + 0x80 ∧
      v % 64 + 0x80 ≤ high.toNat ∧ complete n 0x80 0xbf v rest = (some c, left) := by
  cases bytes with
  | nil => cases completed
  | cons b rest =>
    rw [complete] at completed
    split at completed
    · next continues =>
      obtain ⟨low_le, le_high⟩ := isContinuation_iff.1 continues
      have same : digit (bits * 64 + (b.toNat - 0x80)) = b := by
        rw [← UInt8.toNat_inj, toNat_digit]
        omega
      exact ⟨_, rest, by omega, by rw [same], by omega, by omega, completed⟩
    · cases completed

theorem complete_append (above : 0x80 ≤ low.toNat) (below : high.toNat ≤ 0xbf)
    (ends : isContinuation 0x80 0xbf b = false) (bits : Nat) (front back : List UInt8) :
    complete n low high bits (front ++ b :: back) =
      ((complete n low high bits front).1, (complete n low high bits front).2 ++ b :: back) := by
  induction n generalizing low high bits front with
  | zero => rfl
  | succ n ih =>
    cases front with
    | nil =>
      have outside : isContinuation low high b = false := by
        rw [← Bool.not_eq_true, isContinuation_iff] at ends ⊢
        simp only [UInt8.reduceToNat] at ends
        omega
      simp [complete, outside]
    | cons d front =>
      rw [List.cons_append, complete, complete]
      split
      · exact ih (by decide) (by decide) _ front
      · rfl

theorem exists_completion (n : Nat) (bits : Nat) (ordered : low.toNat ≤ high.toNat) :
    ∃ fill c, complete n low high bits fill = (some c, []) := by
  induction n generalizing low high bits with
  | zero => exact ⟨[], _, rfl⟩
  | succ n ih =>
    have continues : isContinuation low high low = true :=
      isContinuation_iff.2 ⟨Nat.le_refl _, ordered⟩
    obtain ⟨fill, c, completed⟩ := @ih 0x80 0xbf (bits * 64 + (low.toNat - 0x80)) (by decide)
    exact ⟨low :: fill, c, by rw [complete, if_pos continues, completed]⟩

theorem taken_of_complete (ordered : low.toNat ≤ high.toNat)
    (broken : complete n low high bits bytes = (none, left)) :
    ∃ taken, bytes = taken ++ left ∧
      (∃ fill c, complete n low high bits (taken ++ fill) = (some c, [])) ∧
      ∀ d ∈ left.head?, ∀ more, (complete n low high bits (taken ++ d :: more)).1 = none := by
  induction n generalizing low high bits bytes with
  | zero => cases broken
  | succ n ih =>
    cases bytes with
    | nil =>
      cases broken
      exact ⟨[], rfl, exists_completion _ _ ordered, nofun⟩
    | cons d rest =>
      by_cases continues : isContinuation low high d = true
      · rw [complete, if_pos continues] at broken
        obtain ⟨taken, rfl, completion, stops⟩ := ih (by decide) broken
        refine ⟨d :: taken, rfl, ?_, ?_⟩
        · simpa only [List.cons_append, complete, if_pos continues] using completion
        · simpa only [List.cons_append, complete, if_pos continues] using stops
      · rw [complete, if_neg continues] at broken
        cases broken
        refine ⟨[], rfl, exists_completion _ _ ordered, ?_⟩
        rintro _ ⟨⟩ more
        rw [List.nil_append, complete, if_neg continues]

/-! ## Reading a character -/

theorem utf8EncodeChar_of_lead (leads : IsLead b l)
    (completed : complete l.following l.low l.high l.bits rest = (some c, left)) :
    b :: rest = String.utf8EncodeChar c ++ left := by
  obtain ⟨above, -, below⟩ := leads.bounds
  cases leads with
  | two more first long short =>
    rw [more] at completed
    obtain ⟨v, _, value, rfl, -, -, ⟨⟩⟩ := digit_of_complete above below completed
    rw [encode_two (by omega) (by omega), ofNat_eq (b := b) (by omega)]
    rfl
  | three more first short low high =>
    rw [more] at completed
    obtain ⟨_, _, value, rfl, low_le, le_high, completed⟩ := digit_of_complete above below completed
    obtain ⟨v, _, rfl, rfl, -, -, ⟨⟩⟩ := digit_of_complete (by decide) (by decide) completed
    -- The bounds of the second byte rule out the surrogates.
    have valid : v.isValidChar := by
      unfold Nat.isValidChar
      omega
    rw [encode_three valid (by omega) (by omega), ofNat_eq (b := b) (by omega)]
    rfl
  | four more first short low high =>
    rw [more] at completed
    obtain ⟨_, _, value, rfl, low_le, le_high, completed⟩ := digit_of_complete above below completed
    obtain ⟨_, _, rfl, rfl, -, -, completed⟩ := digit_of_complete (by decide) (by decide) completed
    obtain ⟨v, _, rfl, rfl, -, -, ⟨⟩⟩ := digit_of_complete (by decide) (by decide) completed
    have valid : v.isValidChar := .inr (by omega)
    rw [encode_four valid (by omega), ofNat_eq (b := b) (by omega)]
    rfl

theorem utf8EncodeChar_of_next (read : next b rest = (some c, left)) :
    b :: rest = String.utf8EncodeChar c ++ left := by
  unfold next at read
  split at read
  · next ascii =>
    cases read
    rw [UInt8.lt_iff_toNat_lt] at ascii
    rw [encode_one ascii, UInt8.ofNat_toNat]
    rfl
  · split at read
    · next l found => exact utf8EncodeChar_of_lead (isLead_of_lead? found) read
    · cases read

theorem next_one (short : v < 0x80) (left : List UInt8) :
    next (UInt8.ofNat v) left = (some (Char.ofNat v), left) := by
  have first : (UInt8.ofNat v).toNat = v := toNat_ofNat_of_lt (by omega)
  have ascii : UInt8.ofNat v < 0x80 := by rwa [UInt8.lt_iff_toNat_lt, first]
  rw [next, if_pos ascii, first]

theorem next_two (long : 0x80 ≤ v) (short : v < 0x800) (left : List UInt8) :
    next (UInt8.ofNat (v / 64 + 0xc0)) (digit v :: left) = (some (Char.ofNat v), left) := by
  have first : (UInt8.ofNat (v / 64 + 0xc0)).toNat = v / 64 + 0xc0 := toNat_ofNat_of_lt (by omega)
  obtain ⟨l, found⟩ := @exists_lead? (UInt8.ofNat (v / 64 + 0xc0)) (by omega) (by omega)
  rw [next_of_lead? found]
  cases isLead_of_lead? found with
  | two more same _ _ low high =>
    have bits : l.bits = v / 64 := by omega
    have continues : isContinuation l.low l.high (digit v) = true := by
      rw [isContinuation_iff, toNat_digit]
      omega
    rw [more, bits, complete_digit continues]
    rfl
  | three | four => omega

theorem next_three (valid : v.isValidChar) (long : 0x800 ≤ v) (short : v < 0x10000)
    (left : List UInt8) :
    next (UInt8.ofNat (v / 64 / 64 + 0xe0)) (digit (v / 64) :: digit v :: left) =
      (some (Char.ofNat v), left) := by
  have first : (UInt8.ofNat (v / 64 / 64 + 0xe0)).toNat = v / 64 / 64 + 0xe0 :=
    toNat_ofNat_of_lt (by omega)
  obtain ⟨l, found⟩ := @exists_lead? (UInt8.ofNat (v / 64 / 64 + 0xe0)) (by omega) (by omega)
  rw [next_of_lead? found]
  cases isLead_of_lead? found with
  | three more same _ low high =>
    have bits : l.bits = v / 64 / 64 := by omega
    have continues : isContinuation l.low l.high (digit (v / 64)) = true := by
      rw [isContinuation_iff, toNat_digit]
      unfold Nat.isValidChar at valid
      omega
    rw [more, bits, complete_digit continues, complete_digit (isContinuation_digit v)]
    rfl
  | two | four => omega

theorem next_four (valid : v.isValidChar) (long : 0x10000 ≤ v) (left : List UInt8) :
    next (UInt8.ofNat (v / 64 / 64 / 64 + 0xf0))
        (digit (v / 64 / 64) :: digit (v / 64) :: digit v :: left) =
      (some (Char.ofNat v), left) := by
  unfold Nat.isValidChar at valid
  have first : (UInt8.ofNat (v / 64 / 64 / 64 + 0xf0)).toNat = v / 64 / 64 / 64 + 0xf0 :=
    toNat_ofNat_of_lt (by omega)
  obtain ⟨l, found⟩ := @exists_lead? (UInt8.ofNat (v / 64 / 64 / 64 + 0xf0)) (by omega) (by omega)
  rw [next_of_lead? found]
  cases isLead_of_lead? found with
  | four more same _ low high =>
    have bits : l.bits = v / 64 / 64 / 64 := by omega
    have continues : isContinuation l.low l.high (digit (v / 64 / 64)) = true := by
      rw [isContinuation_iff, toNat_digit]
      omega
    rw [more, bits, complete_digit continues, complete_digit (isContinuation_digit _),
      complete_digit (isContinuation_digit v)]
    rfl
  | two | three => omega

theorem next_of_utf8EncodeChar (encoded : b :: rest = String.utf8EncodeChar c ++ left) :
    next b rest = (some c, left) := by
  obtain ⟨v, valid, rfl⟩ := exists_eq_ofNat c
  by_cases one : v < 0x80
  · rw [encode_one one] at encoded
    obtain ⟨rfl, rfl⟩ := List.cons.inj encoded
    exact next_one one _
  by_cases two : v < 0x800
  · rw [encode_two (by omega) two] at encoded
    obtain ⟨rfl, rfl⟩ := List.cons.inj encoded
    exact next_two (by omega) two left
  by_cases three : v < 0x10000
  · rw [encode_three valid (by omega) three] at encoded
    obtain ⟨rfl, rfl⟩ := List.cons.inj encoded
    exact next_three valid (by omega) three left
  · rw [encode_four valid (by omega)] at encoded
    obtain ⟨rfl, rfl⟩ := List.cons.inj encoded
    exact next_four valid (by omega) left

theorem next_eq_some_iff :
    next b rest = (some c, left) ↔ b :: rest = String.utf8EncodeChar c ++ left :=
  ⟨utf8EncodeChar_of_next, next_of_utf8EncodeChar⟩

theorem taken_of_next (broken : next b rest = (none, left)) :
    ∃ taken, rest = taken ++ left ∧
      (taken = [] ∨ ∃ fill c, next b (taken ++ fill) = (some c, [])) ∧
      ∀ d ∈ left.head?, ∀ more, (next b (taken ++ d :: more)).1 = none := by
  cases found : lead? b with
  | some l =>
    obtain ⟨-, ordered, -⟩ := (isLead_of_lead? found).bounds
    simp only [next_of_lead? found] at broken ⊢
    obtain ⟨taken, rfl, completion, stops⟩ := taken_of_complete ordered broken
    exact ⟨taken, rfl, .inr completion, stops⟩
  | none =>
    unfold next at broken ⊢
    split at broken
    · cases broken
    · next high =>
      rw [found] at broken
      cases broken
      exact ⟨[], rfl, .inl rfl, fun _ _ _ => by rw [if_neg high, found]⟩

theorem next_append (ends : isContinuation 0x80 0xbf b = false) (first : UInt8)
    (front back : List UInt8) :
    next first (front ++ b :: back) =
      ((next first front).1, (next first front).2 ++ b :: back) := by
  cases found : lead? first with
  | some l =>
    obtain ⟨above, -, below⟩ := (isLead_of_lead? found).bounds
    rw [next_of_lead? found, next_of_lead? found, complete_append above below ends]
  | none =>
    unfold next
    split
    · rfl
    · rw [found]

/-! ## What bytes show -/

def Begins (part : List UInt8) : Prop := ∃ c, part <+: String.utf8EncodeChar c

/-- A maximal ill-formed part before the bytes `rest`: no character is encoded there, and it is the
longest part that begins a character, or else a single byte. -/
structure IsIllFormed (part rest : List UInt8) : Prop where
  nonempty : part ≠ []
  unreadable : ∀ c, ¬ String.utf8EncodeChar c <+: part ++ rest
  begins : part.length = 1 ∨ Begins part
  longest : ∀ other, other <+: part ++ rest → Begins other → other.length ≤ part.length

/-- The text that bytes show, with U+FFFD in the place of each maximal ill-formed part. -/
inductive Shows : List UInt8 → List Char → Prop
  | nil : Shows [] []
  | character (c : Char) {rest : List UInt8} {text : List Char} (others : Shows rest text) :
    Shows (String.utf8EncodeChar c ++ rest) (c :: text)
  | illFormed {part rest : List UInt8} {text : List Char} (broken : IsIllFormed part rest)
    (others : Shows rest text) : Shows (part ++ rest) (replacement :: text)

namespace IsIllFormed

variable {part part' rest' : List UInt8}

theorem length_le (broken : IsIllFormed part rest) (broken' : IsIllFormed part' rest')
    (same : part ++ rest = part' ++ rest') : part.length ≤ part'.length := by
  rcases broken.begins with single | begins
  · rw [single]
    exact List.length_pos_iff.2 broken'.nonempty
  · exact broken'.longest part (same ▸ List.prefix_append part rest) begins

theorem unique (broken : IsIllFormed part rest) (broken' : IsIllFormed part' rest')
    (same : part ++ rest = part' ++ rest') : part = part' ∧ rest = rest' :=
  List.append_inj same
    (Nat.le_antisymm (broken.length_le broken' same) (broken'.length_le broken same.symm))

end IsIllFormed

theorem isIllFormed_of_next (broken : next b rest = (none, left)) :
    ∃ part, b :: rest = part ++ left ∧ IsIllFormed part left := by
  obtain ⟨taken, rfl, begins, stops⟩ := taken_of_next broken
  refine ⟨b :: taken, rfl, List.cons_ne_nil b taken, ?_, ?_, ?_⟩
  · rintro c ⟨others, encoded⟩
    cases broken.symm.trans (next_of_utf8EncodeChar encoded.symm)
  · rcases begins with rfl | ⟨fill, c, completed⟩
    · exact .inl rfl
    · refine .inr ⟨c, fill, ?_⟩
      simpa using utf8EncodeChar_of_next completed
  · rintro other inside ⟨c, others, encoded⟩
    refine Nat.le_of_not_lt fun longer => ?_
    -- The first byte behind the part would have to go on with the character.
    obtain ⟨beyond, rfl⟩ : b :: taken <+: other :=
      List.prefix_of_prefix_length_le (List.prefix_append _ _) inside (by omega)
    cases beyond with
    | nil => simp at longer
    | cons d beyond =>
      have follows : left.head? = some d := by
        obtain ⟨more, rfl⟩ := (List.prefix_append_right_inj _).1 inside
        rfl
      have read : next b (taken ++ d :: (beyond ++ others)) = (some c, []) :=
        next_of_utf8EncodeChar (by simpa using encoded)
      have stopped := stops d follows (beyond ++ others)
      rw [read] at stopped
      cases stopped

theorem parts_cons (b : UInt8) (rest : List UInt8) :
    parts (b :: rest) = (next b rest).1 :: parts (next b rest).2 := by
  rw [parts]

theorem decodeLossy_nil : decodeLossy [] = [] := by
  rw [decodeLossy, parts]
  rfl

theorem decodeLossy_cons (b : UInt8) (rest : List UInt8) :
    decodeLossy (b :: rest) =
      (next b rest).1.getD replacement :: decodeLossy (next b rest).2 := by
  rw [decodeLossy, parts_cons]
  rfl

theorem exists_utf8EncodeChar_cons (c : Char) : ∃ b tail, String.utf8EncodeChar c = b :: tail := by
  have positive : 0 < (String.utf8EncodeChar c).length := by
    rw [String.length_utf8EncodeChar]
    exact c.utf8Size_pos
  exact List.exists_cons_of_length_pos positive

theorem decodeLossy_character (c : Char) (rest : List UInt8) :
    decodeLossy (String.utf8EncodeChar c ++ rest) = c :: decodeLossy rest := by
  obtain ⟨b, tail, encoded⟩ := exists_utf8EncodeChar_cons c
  have read : next b (tail ++ rest) = (some c, rest) :=
    next_of_utf8EncodeChar (by rw [encoded, List.cons_append])
  rw [encoded, List.cons_append, decodeLossy_cons, read]
  rfl

theorem decodeLossy_illFormed {part : List UInt8} (broken : IsIllFormed part rest) :
    decodeLossy (part ++ rest) = replacement :: decodeLossy rest := by
  obtain ⟨b, tail, rfl⟩ := List.exists_cons_of_ne_nil broken.nonempty
  rw [List.cons_append, decodeLossy_cons]
  rcases read : next b (tail ++ rest) with ⟨_ | c, left⟩
  · obtain ⟨part', same, broken'⟩ := isIllFormed_of_next read
    obtain ⟨-, rfl⟩ := broken.unique broken' same
    rfl
  · exact absurd ⟨left, (utf8EncodeChar_of_next read).symm⟩ (broken.unreadable c)

theorem shows_decodeLossy (bytes : List UInt8) : Shows bytes (decodeLossy bytes) := by
  fun_induction parts bytes with
  | case1 =>
    rw [decodeLossy_nil]
    exact .nil
  | case2 b rest ih =>
    rw [decodeLossy_cons]
    rcases read : next b rest with ⟨_ | c, left⟩
    · obtain ⟨part, same, broken⟩ := isIllFormed_of_next read
      rw [read] at ih
      rw [same]
      exact .illFormed broken ih
    · rw [read] at ih
      rw [utf8EncodeChar_of_next read]
      exact .character c ih

/-- What is read is the only text that the bytes show. -/
theorem decodeLossy_eq_iff {text : List Char} : decodeLossy bytes = text ↔ Shows bytes text := by
  constructor
  · rintro rfl
    exact shows_decodeLossy bytes
  · intro shows
    induction shows with
    | nil => exact decodeLossy_nil
    | character c _ ih => rw [decodeLossy_character, ih]
    | illFormed broken _ ih => rw [decodeLossy_illFormed broken, ih]

/-! ## Reading in parts -/

theorem parts_append (ends : isContinuation 0x80 0xbf b = false) (front back : List UInt8) :
    parts (front ++ b :: back) = parts front ++ parts (b :: back) := by
  fun_induction parts front with
  | case1 => rfl
  | case2 first front ih =>
    rw [List.cons_append, parts_cons, next_append ends, ih, List.cons_append]

theorem decodeLossy_append_ascii (ascii : b < 0x80) (front back : List UInt8) :
    decodeLossy (front ++ b :: back) =
      decodeLossy front ++ Char.ofNat b.toNat :: decodeLossy back := by
  have ends : isContinuation 0x80 0xbf b = false := by
    rw [← Bool.not_eq_true, isContinuation_iff]
    rw [UInt8.lt_iff_toNat_lt] at ascii
    exact fun range => Nat.not_le_of_lt ascii range.1
  rw [decodeLossy, replaced, parts_append ends, List.map_append]
  congr 1
  rw [parts_cons, next, if_pos ascii]
  rfl

theorem mem_of_mem_decodeLossy (ascii : v < 0x80)
    (member : Char.ofNat v ∈ decodeLossy bytes) : UInt8.ofNat v ∈ bytes := by
  have shows := shows_decodeLossy bytes
  generalize decodeLossy bytes = text at member shows
  induction shows with
  | nil => cases member
  | character c _ ih =>
    rcases List.mem_cons.1 member with rfl | member
    · rw [encode_one ascii]
      exact List.mem_append_left _ List.mem_cons_self
    · exact List.mem_append_right _ (ih member)
  | illFormed _ _ ih =>
    rcases List.mem_cons.1 member with same | member
    · have value := congrArg (fun c : Char => c.val.toNat) same
      rw [toNat_val_ofNat (.inl (by omega))] at value
      have wide : replacement.val.toNat = 0xfffd := rfl
      omega
    · exact List.mem_append_right _ (ih member)

theorem decodeLossy_ne_nil (some : bytes ≠ []) : decodeLossy bytes ≠ [] := by
  obtain ⟨b, rest, rfl⟩ := List.exists_cons_of_ne_nil some
  rw [decodeLossy_cons]
  exact List.cons_ne_nil _ _

theorem decodeLossy_flatMap (text : List Char) :
    decodeLossy (text.flatMap String.utf8EncodeChar) = text := by
  induction text with
  | nil => exact decodeLossy_nil
  | cons c text ih => rw [List.flatMap_cons, decodeLossy_character, ih]

theorem encode_decodeLossy (wellFormed : bytes.toByteArray.IsValidUTF8) :
    encode (decodeLossy bytes) = bytes.toByteArray := by
  obtain ⟨text, same⟩ := wellFormed
  have bytes_eq : bytes = text.flatMap String.utf8EncodeChar := by
    simpa [List.utf8Encode] using congrArg (·.data.toList) same
  rw [bytes_eq, decodeLossy_flatMap, encode]
  exact String.toByteArray_ofList

end PipelineShell.Utf8
