import PipelineShell.Text.Blank

/-!
# Tokens

A command line is cut into words, quoted texts and operators. Blanks separate and are dropped; a
quotation runs to the next mark of its own kind and may hold anything else; a word is a longest
run of characters that are neither blank, operator nor quotation mark. Cutting fails only where a
quotation has no end.
-/

namespace PipelineShell

abbrev Word := List Char

def Word.toString (word : Word) : String := String.ofList word

inductive Operator
  | pipe
  | semicolon
  | ampersand
  | less
  | greater
deriving Repr, DecidableEq

namespace Operator

def char : Operator → Char
  | pipe => '|'
  | semicolon => ';'
  | ampersand => '&'
  | less => '<'
  | greater => '>'

def ofChar? : Char → Option Operator
  | '|' => some pipe
  | ';' => some semicolon
  | '&' => some ampersand
  | '<' => some less
  | '>' => some greater
  | _ => none

@[simp] theorem ofChar?_char (op : Operator) : ofChar? op.char = some op := by
  cases op <;> rfl

end Operator

inductive QuoteMark
  | single
  | double
deriving Repr, DecidableEq

namespace QuoteMark

def char : QuoteMark → Char
  | single => '\''
  | double => '"'

def ofChar? : Char → Option QuoteMark
  | '\'' => some single
  | '"' => some double
  | _ => none

@[simp] theorem ofChar?_char (mark : QuoteMark) : ofChar? mark.char = some mark := by
  cases mark <;> rfl

end QuoteMark

def isWordChar (c : Char) : Bool :=
  !isBlank c && (Operator.ofChar? c).isNone && (QuoteMark.ofChar? c).isNone

inductive Token
  | word (text : Word)
  | quoted (mark : QuoteMark) (body : Word)
  | operator (op : Operator)
deriving Repr, DecidableEq

namespace Token

/-- The characters that a token was cut from; a quotation has both of its marks. -/
def text : Token → Word
  | word text => text
  | quoted mark body => mark.char :: body ++ [mark.char]
  | operator op => [op.char]

def splitAt? (c : Char) : Word → Option (Word × Word)
  | [] => none
  | d :: rest =>
    if d = c then some ([], rest) else (splitAt? c rest).map fun (body, after) => (d :: body, after)

theorem splitAt?_eq_some {c : Char} {s body after : Word} (h : splitAt? c s = some (body, after)) :
    s = body ++ c :: after ∧ c ∉ body := by
  induction s generalizing body with
  | nil => cases h
  | cons d rest ih =>
    simp only [splitAt?] at h
    split at h
    · next hd =>
      cases h
      simp [hd]
    · next hd =>
      obtain ⟨⟨b, a⟩, hb, heq⟩ := Option.map_eq_some_iff.1 h
      cases heq
      obtain ⟨rfl, hc⟩ := ih hb
      exact ⟨rfl, by simp [hc, Ne.symm hd]⟩

theorem length_splitAt? {c : Char} {s body after : Word} (h : splitAt? c s = some (body, after)) :
    after.length < s.length := by
  obtain ⟨rfl, -⟩ := splitAt?_eq_some h
  simp only [List.length_append, List.length_cons]
  omega

theorem length_dropWhile_le (p : Char → Bool) (s : Word) : (s.dropWhile p).length ≤ s.length := by
  induction s with
  | nil => simp
  | cons c s ih =>
    rw [List.dropWhile_cons]
    split
    · exact Nat.le_succ_of_le ih
    · exact Nat.le_refl _

def scan : Word → Option (List Token)
  | [] => some []
  | c :: rest =>
    if isBlank c then scan rest
    else
      match Operator.ofChar? c, QuoteMark.ofChar? c with
      | some op, _ => (scan rest).map (operator op :: ·)
      | none, some mark =>
        match _h : splitAt? c rest with
        | some (body, after) => (scan after).map (quoted mark body :: ·)
        | none => none
      | none, none =>
        (scan (rest.dropWhile isWordChar)).map (word (c :: rest.takeWhile isWordChar) :: ·)
termination_by s => s.length
decreasing_by
  · simp
  · simp
  · exact Nat.lt_succ_of_lt (length_splitAt? _h)
  · exact Nat.lt_succ_of_le (length_dropWhile_le ..)

end Token

end PipelineShell
