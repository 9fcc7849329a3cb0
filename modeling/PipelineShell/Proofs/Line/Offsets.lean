import PipelineShell.Line.Parse
import PipelineShell.Pipeline.Run
import PipelineShell.Proofs.Line.Spelling

namespace PipelineShell

def indexBefore? : Nat → Option Nat
  | 0 => none
  | count + 1 => some count

namespace Word

/-! ## Lengths in bytes -/

theorem foldl_utf8Size (text : Word) (total : Nat) :
    text.foldl (fun total c => total + c.utf8Size) total = total + byteLength text := by
  induction text generalizing total with
  | nil => rfl
  | cons c text ih => rw [byteLength, List.foldl_cons, List.foldl_cons, ih, ih]; omega

@[simp] theorem byteLength_nil : byteLength [] = 0 := rfl

@[simp] theorem byteLength_cons (c : Char) (text : Word) :
    byteLength (c :: text) = c.utf8Size + byteLength text := by
  rw [byteLength, List.foldl_cons, foldl_utf8Size, Nat.zero_add]

@[simp] theorem byteLength_append (front back : Word) :
    byteLength (front ++ back) = byteLength front + byteLength back := by
  induction front with
  | nil => simp
  | cons c front ih => rw [List.cons_append, byteLength_cons, byteLength_cons, ih, Nat.add_assoc]

theorem size_utf8Encode (text : Word) : (List.utf8Encode text).size = byteLength text := by
  induction text with
  | nil => rfl
  | cons c text ih =>
    rw [List.utf8Encode_cons, ByteArray.size_append, ih, byteLength_cons,
      List.utf8Encode_singleton, List.size_toByteArray, String.length_utf8EncodeChar]

theorem rawEndPos_toString (text : Word) : text.toString.rawEndPos = ⟨byteLength text⟩ := by
  rw [← size_utf8Encode, ← String.toByteArray_ofList]
  rfl

/-! ## Parts of a text -/

/-- A text cut behind its first `count` bytes. There is no cut inside a character, nor behind the
end. -/
def splitBytes? : Word → Nat → Option (Word × Word)
  | text, 0 => some ([], text)
  | [], _ + 1 => none
  | c :: rest, count + 1 =>
    if c.utf8Size ≤ count + 1 then
      (splitBytes? rest (count + 1 - c.utf8Size)).map fun (front, back) => (c :: front, back)
    else none

theorem splitBytes?_append (front back : Word) :
    splitBytes? (front ++ back) (byteLength front) = some (front, back) := by
  induction front with
  | nil => cases back <;> rfl
  | cons c front ih =>
    have positive := c.utf8Size_pos
    obtain ⟨count, length⟩ : ∃ count, byteLength (c :: front) = count + 1 :=
      ⟨byteLength (c :: front) - 1, by rw [byteLength_cons]; omega⟩
    rw [length, List.cons_append, splitBytes?]
    rw [byteLength_cons] at length
    have rest : count + 1 - c.utf8Size = byteLength front := by omega
    rw [if_pos (by omega), rest, ih, Option.map_some]

theorem splitBytes?_eq_some_iff {text front back : Word} {count : Nat} :
    text.splitBytes? count = some (front, back) ↔
      text = front ++ back ∧ byteLength front = count := by
  constructor
  · intro split
    fun_induction splitBytes? text count generalizing front with
    | case1 text =>
      cases split
      exact ⟨rfl, rfl⟩
    | case2 => cases split
    | case3 c rest count fits ih =>
      obtain ⟨⟨front, back⟩, split, same⟩ := Option.map_eq_some_iff.1 split
      cases same
      obtain ⟨rfl, length⟩ := ih split
      exact ⟨rfl, by rw [byteLength_cons]; omega⟩
    | case4 => cases split
  · rintro ⟨rfl, rfl⟩
    exact splitBytes?_append front back

theorem exists_splitBytes?_iff {text : Word} {count : Nat} :
    (∃ parts, text.splitBytes? count = some parts) ↔
      String.Pos.Raw.IsValid text.toString ⟨count⟩ := by
  rw [String.Pos.Raw.isValid_iff_exists_append]
  constructor
  · rintro ⟨⟨front, back⟩, split⟩
    obtain ⟨rfl, rfl⟩ := splitBytes?_eq_some_iff.1 split
    exact ⟨toString front, toString back, String.ofList_append, by rw [rawEndPos_toString]⟩
  · rintro ⟨front, back, same, position⟩
    refine ⟨(front.toList, back.toList), splitBytes?_eq_some_iff.2 ⟨?_, ?_⟩⟩
    · rw [← String.toList_append, ← same, toString, String.toList_ofList]
    · rw [← String.ofList_toList (s := front)] at position
      have length := position.trans (rawEndPos_toString front.toList)
      injection length with length
      exact length.symm

/-- The part of a text from one byte offset to another. There is none if the offsets are in the
wrong order, behind the end or inside a character. -/
def slice? (text : Word) (start stop : Nat) : Option Word :=
  if start ≤ stop then do
    let (_, back) ← text.splitBytes? start
    let (middle, _) ← back.splitBytes? (stop - start)
    return middle
  else none

theorem slice?_eq_some_iff {text middle : Word} {start stop : Nat} :
    text.slice? start stop = some middle ↔
      ∃ front back, text = front ++ middle ++ back ∧ byteLength front = start ∧
        byteLength (front ++ middle) = stop := by
  unfold slice?
  constructor
  · intro sliced
    split at sliced
    · obtain ⟨⟨front, behind⟩, split, sliced⟩ := Option.bind_eq_some_iff.1 sliced
      obtain ⟨⟨middle, back⟩, split', sliced⟩ := Option.bind_eq_some_iff.1 sliced
      cases sliced
      obtain ⟨rfl, rfl⟩ := splitBytes?_eq_some_iff.1 split
      obtain ⟨rfl, length⟩ := splitBytes?_eq_some_iff.1 split'
      exact ⟨front, back, by simp, rfl, by rw [byteLength_append]; omega⟩
    · cases sliced
  · rintro ⟨front, back, rfl, rfl, rfl⟩
    rw [byteLength_append, if_pos (Nat.le_add_right ..), Nat.add_sub_cancel_left, List.append_assoc,
      splitBytes?_append]
    simp [splitBytes?_append]

theorem eq_nil_of_byteLength {text : Word} (length : byteLength text = 0) : text = [] := by
  cases text with
  | nil => rfl
  | cons c text =>
    have positive := c.utf8Size_pos
    rw [byteLength_cons] at length
    omega

theorem exists_slice?_iff {text : Word} {start stop : Nat} :
    (∃ middle, text.slice? start stop = some middle) ↔
      start ≤ stop ∧ String.Pos.Raw.IsValid text.toString ⟨start⟩ ∧
        String.Pos.Raw.IsValid text.toString ⟨stop⟩ := by
  rw [← exists_splitBytes?_iff, ← exists_splitBytes?_iff]
  constructor
  · rintro ⟨middle, sliced⟩
    obtain ⟨front, back, rfl, rfl, rfl⟩ := slice?_eq_some_iff.1 sliced
    refine ⟨by simp, ⟨(front, middle ++ back), ?_⟩, ⟨(front ++ middle, back), ?_⟩⟩
    · exact splitBytes?_eq_some_iff.2 ⟨by simp, rfl⟩
    · exact splitBytes?_eq_some_iff.2 ⟨rfl, rfl⟩
  · rintro ⟨ordered, ⟨⟨front, behind⟩, split⟩, ⟨⟨front', back⟩, split'⟩⟩
    obtain ⟨rfl, rfl⟩ := splitBytes?_eq_some_iff.1 split
    obtain ⟨same, rfl⟩ := splitBytes?_eq_some_iff.1 split'
    rcases List.append_eq_append_iff.1 same with ⟨middle, rfl, rfl⟩ | ⟨middle, rfl, rfl⟩
    · exact ⟨middle, slice?_eq_some_iff.2 ⟨front, back, by simp, rfl, rfl⟩⟩
    · -- The ends are in order, so nothing is between them.
      rw [byteLength_append] at ordered
      obtain rfl := eq_nil_of_byteLength (show byteLength middle = 0 by omega)
      exact ⟨[], slice?_eq_some_iff.2 ⟨front', behind, by simp, by simp, by simp⟩⟩

theorem utf8Encode_slice? {text middle : Word} {start stop : Nat}
    (sliced : text.slice? start stop = some middle) :
    (List.utf8Encode text).extract start stop = List.utf8Encode middle := by
  obtain ⟨front, back, rfl, rfl, rfl⟩ := slice?_eq_some_iff.1 sliced
  rw [byteLength_append, ← size_utf8Encode, ← size_utf8Encode, List.append_assoc,
    List.utf8Encode_append, List.utf8Encode_append]
  have shifted := ByteArray.extract_append_size_add (a := List.utf8Encode front)
    (b := List.utf8Encode middle ++ List.utf8Encode back) (i := 0)
    (j := (List.utf8Encode middle).size)
  rw [Nat.add_zero] at shifted
  rw [shifted, ByteArray.extract_append_eq_left rfl]

end Word

/-! ## Cursors -/

abbrev Cursor := List (Nat × Char)

namespace Cursor

def startAt (offset : Nat) : Word → Cursor
  | [] => []
  | c :: rest => (offset, c) :: startAt (offset + c.utf8Size) rest

def behind? (c : Char) : Cursor → Option (Nat × Cursor)
  | [] => none
  | (offset, d) :: rest => if d = c then some (offset + d.utf8Size, rest) else behind? c rest

def skipWord (cursor : Cursor) : Cursor := cursor.dropWhile (isWordChar ·.2)

def offset (total : Nat) : Cursor → Nat
  | [] => total
  | (offset, _) :: _ => offset

theorem behind?_startAt (c : Char) (offset : Nat) (text : Word) :
    behind? c (startAt offset text) = (Token.splitAt? c text).map fun (body, after) =>
      let stop := offset + (body ++ [c]).byteLength
      (stop, startAt stop after) := by
  induction text generalizing offset with
  | nil => rfl
  | cons d text ih =>
    rw [startAt, behind?, Token.splitAt?]
    split
    · next same =>
      subst same
      simp
    · rw [ih]
      cases Token.splitAt? c text with
      | none => rfl
      | some parts => simp [Nat.add_assoc]

theorem startAt_cons (front : Word) (c : Char) (rest : Word) :
    startAt front.byteLength (c :: rest) =
      (front.byteLength, c) :: startAt (front ++ [c]).byteLength rest := by
  simp [startAt]

theorem skipWord_startAt (offset : Nat) (text : Word) :
    skipWord (startAt offset text) = startAt (offset + Word.byteLength (text.takeWhile isWordChar))
      (text.dropWhile isWordChar) := by
  induction text generalizing offset with
  | nil => rfl
  | cons c text ih =>
    have ih := ih (offset + c.utf8Size)
    cases plain : isWordChar c with
    | true => simpa [skipWord, startAt, plain, Nat.add_assoc] using ih
    | false => simp [skipWord, startAt, plain]

theorem offset_startAt (start : Nat) (text : Word) :
    offset (start + text.byteLength) (startAt start text) = start := by
  cases text <;> simp [startAt, offset]

theorem length_behind? {c : Char} {cursor after : Cursor} {stop : Nat}
    (found : behind? c cursor = some (stop, after)) : after.length < cursor.length := by
  induction cursor with
  | nil => cases found
  | cons next cursor ih =>
    obtain ⟨offset, d⟩ := next
    rw [behind?] at found
    split at found
    · cases found
      exact Nat.lt_succ_self _
    · exact Nat.lt_succ_of_lt (ih found)

theorem length_skipWord_le (cursor : Cursor) : (skipWord cursor).length ≤ cursor.length :=
  (List.dropWhile_suffix _).length_le

end Cursor

/-! ## Pieces -/

inductive Piece
  | word (text : Word)
  | quoted (text : Word)
  | operator (op : Operator)
deriving DecidableEq

namespace Piece

/-- Cuts the rest of an input. There is no result if a part is taken that is not there. -/
def cut? (input : Word) : Cursor → Option (Except ParseError (List Piece))
  | [] => some (.ok [])
  | (start, c) :: rest =>
    if isBlank c then cut? input rest
    else
      match Operator.ofChar? c, QuoteMark.ofChar? c with
      | some op, _ => (cut? input rest).map (Except.map (operator op :: ·))
      | none, some _ =>
        match _h : Cursor.behind? c rest with
        | some (stop, after) => (input.slice? start stop).bind fun text =>
          (cut? input after).map (Except.map (quoted text :: ·))
        | none => some (.error .unterminatedQuote)
      | none, none =>
        let after := Cursor.skipWord rest
        (input.slice? start (Cursor.offset input.byteLength after)).bind fun text =>
          (cut? input after).map (Except.map (word text :: ·))
termination_by cursor => cursor.length
decreasing_by
  · simp
  · simp
  · exact Nat.lt_succ_of_lt (Cursor.length_behind? _h)
  · exact Nat.lt_succ_of_le (Cursor.length_skipWord_le _)

def unquote? (text : Word) : Option Word :=
  (indexBefore? text.byteLength).bind (text.slice? 1 ·)

def ofToken : Token → Piece
  | .word text => word text
  | .quoted mark body => quoted (Token.quoted mark body).text
  | .operator op => operator op

def ofScan : Option (List Token) → Except ParseError (List Piece)
  | some tokens => .ok (tokens.map ofToken)
  | none => .error .unterminatedQuote

theorem ofScan_map (token : Token) (scanned : Option (List Token)) :
    ofScan (scanned.map (token :: ·)) = (ofScan scanned).map (ofToken token :: ·) := by
  cases scanned <;> rfl

/-! ## Cutting by offsets -/

section Steps

variable {input text : Word} {start stop : Nat} {rest after : Cursor}

theorem cut?_blank {c : Char} (blank : isBlank c = true) :
    cut? input ((start, c) :: rest) = cut? input rest := by
  rw [cut?, if_pos blank]

theorem cut?_operator (op : Operator) :
    cut? input ((start, op.char) :: rest) = (cut? input rest).map (Except.map (operator op :: ·)) := by
  rw [cut?]
  simp

theorem cut?_quoted {mark : QuoteMark} (closes : Cursor.behind? mark.char rest = some (stop, after))
    (sliced : input.slice? start stop = some text) :
    cut? input ((start, mark.char) :: rest) = (cut? input after).map (Except.map (quoted text :: ·)) := by
  rw [cut?]
  simp only [isBlank_quoteMark, Bool.false_eq_true, if_false, Operator.ofChar?_quoteMark,
    QuoteMark.ofChar?_char]
  split
  · next found =>
    cases closes.symm.trans found
    simp [sliced]
  · next missing => cases closes.symm.trans missing

theorem cut?_open {mark : QuoteMark} (isOpen : Cursor.behind? mark.char rest = none) :
    cut? input ((start, mark.char) :: rest) = some (.error .unterminatedQuote) := by
  rw [cut?]
  simp only [isBlank_quoteMark, Bool.false_eq_true, if_false, Operator.ofChar?_quoteMark,
    QuoteMark.ofChar?_char]
  split
  · next found => cases isOpen.symm.trans found
  · rfl

theorem cut?_word {c : Char} (plain : isWordChar c = true)
    (sliced : input.slice? start (Cursor.offset input.byteLength (Cursor.skipWord rest)) = some text) :
    cut? input ((start, c) :: rest) =
      (cut? input (Cursor.skipWord rest)).map (Except.map (word text :: ·)) := by
  obtain ⟨blank, notOperator, notMark⟩ := isWordChar_iff.1 plain
  rw [cut?]
  simp [blank, notOperator, notMark, sliced]

end Steps

theorem slice?_middle (front middle back : Word) :
    (front ++ middle ++ back).slice? front.byteLength (front ++ middle).byteLength = some middle :=
  Word.slice?_eq_some_iff.2 ⟨front, back, rfl, rfl, rfl⟩

theorem cut?_append (front back : Word) :
    cut? (front ++ back) (Cursor.startAt front.byteLength back) = some (ofScan (Token.scan back)) := by
  fun_induction Token.scan back generalizing front with
  | case1 =>
    rw [Cursor.startAt, cut?]
    rfl
  | case2 c rest blank ih =>
    rw [Cursor.startAt_cons, cut?_blank blank, List.append_cons, ih]
  | case3 c rest _ op found ih =>
    rw [Operator.eq_char_of_ofChar? found, Cursor.startAt_cons, cut?_operator, List.append_cons, ih,
      ofScan_map]
    rfl
  | case4 c rest _ mark found _ body after split ih =>
    obtain ⟨rfl, free⟩ := Token.splitAt?_eq_some split
    rw [QuoteMark.eq_char_of_ofChar? found] at free ⊢
    have whole : front ++ mark.char :: (body ++ mark.char :: after) =
        front ++ (Token.quoted mark body).text ++ after := by
      simp [Token.text]
    have closes : Cursor.behind? mark.char
        (Cursor.startAt (front ++ [mark.char]).byteLength (body ++ mark.char :: after)) =
          some ((front ++ (Token.quoted mark body).text).byteLength,
            Cursor.startAt (front ++ (Token.quoted mark body).text).byteLength after) := by
      rw [Cursor.behind?_startAt, Token.splitAt?_append free]
      simp [Token.text, Nat.add_assoc]
    rw [Cursor.startAt_cons, whole, cut?_quoted closes (slice?_middle ..), ih, ofScan_map]
    rfl
  | case5 c rest _ mark found _ unsplit =>
    rw [QuoteMark.eq_char_of_ofChar? found] at unsplit ⊢
    rw [Cursor.startAt_cons, cut?_open]
    · rfl
    · rw [Cursor.behind?_startAt, unsplit, Option.map_none]
  | case6 c rest blank notMark notOperator ih =>
    have plain : isWordChar c = true :=
      isWordChar_iff.2 ⟨by simpa using blank, notOperator, notMark⟩
    have whole : front ++ c :: rest =
        front ++ (c :: rest.takeWhile isWordChar) ++ rest.dropWhile isWordChar := by
      simp
    have skips : Cursor.skipWord (Cursor.startAt (front ++ [c]).byteLength rest) =
        Cursor.startAt (front ++ (c :: rest.takeWhile isWordChar)).byteLength
          (rest.dropWhile isWordChar) := by
      rw [Cursor.skipWord_startAt]
      simp [Nat.add_assoc]
    have ends := Cursor.offset_startAt (front ++ (c :: rest.takeWhile isWordChar)).byteLength
      (rest.dropWhile isWordChar)
    rw [← Word.byteLength_append] at ends
    rw [Cursor.startAt_cons, whole, cut?_word plain, skips, ih, ofScan_map]
    · rfl
    · rw [skips, ends, slice?_middle]

theorem cut?_eq (text : Word) :
    cut? text (Cursor.startAt 0 text) = some (ofScan (Token.scan text)) :=
  cut?_append [] text

theorem unquote?_text (mark : QuoteMark) (body : Word) :
    unquote? (Token.quoted mark body).text = some body := by
  have width : mark.char.utf8Size = 1 := by cases mark <;> rfl
  have length : (Token.quoted mark body).text.byteLength = body.byteLength + 1 + 1 := by
    simp [Token.text, width]
    omega
  rw [unquote?, length, indexBefore?, Option.bind_some]
  refine Word.slice?_eq_some_iff.2 ⟨[mark.char], [mark.char], rfl, by simp [width], ?_⟩
  simp [width, Nat.add_comm]

end Piece

end PipelineShell
