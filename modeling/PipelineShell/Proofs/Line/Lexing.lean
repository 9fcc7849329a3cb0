import Mathlib.Data.List.Chain
import PipelineShell.Proofs.Line.Leftover

namespace PipelineShell

namespace QuoteMark

/-- The quotation that a reader is in behind a character. Outside of a quotation a mark opens one,
inside of one only the same mark closes it. -/
def behind : Option QuoteMark → Char → Option QuoteMark
  | none, c => ofChar? c
  | some mark, c => if c = mark.char then none else some mark

def atEnd (text : Word) : Option QuoteMark := text.foldl behind none

theorem ofChar?_eq_none_of_isBlank {c : Char} (blank : isBlank c = true) : ofChar? c = none := by
  cases found : ofChar? c with
  | none => rfl
  | some mark =>
    rw [eq_char_of_ofChar? found, isBlank_quoteMark] at blank
    cases blank

theorem foldl_behind_plain {text : Word} (plain : ∀ c ∈ text, ofChar? c = none) :
    text.foldl behind none = none := by
  induction text with
  | nil => rfl
  | cons c text ih =>
    obtain ⟨first, plain⟩ := List.forall_mem_cons.1 plain
    rw [List.foldl_cons, behind, first, ih plain]

theorem foldl_behind_inside {mark : QuoteMark} {body : Word} (free : mark.char ∉ body) :
    body.foldl behind (some mark) = some mark := by
  induction body with
  | nil => rfl
  | cons c body ih =>
    obtain ⟨other, free⟩ := not_or.1 (mt List.mem_cons.2 free)
    rw [List.foldl_cons, behind, if_neg (Ne.symm other), ih free]

end QuoteMark

namespace Token

open QuoteMark (behind atEnd)

theorem Spells.atEnd_eq_none {tokens : List Token} {text : Word} (spells : Spells tokens text) :
    atEnd text = none := by
  induction spells with
  | nil => rfl
  | blank blank _ ih =>
    rwa [atEnd, List.foldl_cons, behind, QuoteMark.ofChar?_eq_none_of_isBlank blank]
  | operator op _ ih =>
    have plain : QuoteMark.ofChar? op.char = none := by cases op <;> rfl
    rwa [atEnd, List.foldl_cons, behind, plain]
  | quoted mark free _ ih =>
    rw [atEnd, List.foldl_cons, behind, QuoteMark.ofChar?_char, List.foldl_append,
      QuoteMark.foldl_behind_inside free, List.foldl_cons, behind, if_pos rfl]
    exact ih
  | word _ plain _ _ ih =>
    rw [atEnd, List.foldl_append,
      QuoteMark.foldl_behind_plain fun c member => (isWordChar_iff.1 (plain c member)).2.2]
    exact ih

theorem atEnd_eq_some_of_open {tokens : List Token} {front : Word} (spells : Spells tokens front)
    {mark : QuoteMark} {body : Word} (isOpen : mark.char ∉ body) :
    atEnd (front ++ mark.char :: body) = some mark := by
  have closed : front.foldl behind none = none := spells.atEnd_eq_none
  rw [atEnd, List.foldl_append, closed, List.foldl_cons, behind, QuoteMark.ofChar?_char,
    QuoteMark.foldl_behind_inside isOpen]

theorem atEnd_eq_none_iff {text : Word} : atEnd text = none ↔ ∃ tokens, scan text = some tokens := by
  constructor
  · intro closed
    refine Option.ne_none_iff_exists'.1 fun uncut => ?_
    obtain ⟨tokens, front, mark, body, rfl, spells, isOpen⟩ := scan_eq_none_iff.1 uncut
    rw [atEnd_eq_some_of_open spells isOpen] at closed
    cases closed
  · rintro ⟨tokens, scanned⟩
    exact (spells_of_scan scanned).atEnd_eq_none

def IsWord : Token → Prop
  | word _ => True
  | quoted .. | operator _ => False

/-- The text consists of blanks and then of tokens, each with blanks behind it. Nothing but blanks
can keep two words apart. -/
structure IsCut (text front : Word) (pieces : List (Token × Word)) : Prop where
  text_eq : text = front ++ pieces.flatMap fun piece => piece.1.text ++ piece.2
  blank : ∀ gap ∈ front :: pieces.map Prod.snd, ∀ c ∈ gap, isBlank c = true
  proper : ∀ piece ∈ pieces, piece.1.IsProper
  apart : pieces.IsChain fun piece next => piece.1.IsWord → next.1.IsWord → piece.2 ≠ []

theorem isWordChar_of_isBlank {c : Char} (blank : isBlank c = true) : isWordChar c = false := by
  simp [isWordChar, blank]

theorem IsCut.endsWord {text front : Word} {pieces : List (Token × Word)}
    (cut : IsCut text front pieces)
    (parted : ∀ next ∈ pieces.head?, next.1.IsWord → front ≠ []) : EndsWord text := by
  rintro c first
  rw [cut.text_eq] at first
  obtain ⟨blank, -⟩ := List.forall_mem_cons.1 cut.blank
  cases front with
  | cons d front =>
    cases first
    exact isWordChar_of_isBlank (blank c (.head _))
  | nil =>
    rcases pieces with _ | ⟨⟨token, gap⟩, pieces⟩
    · cases first
    · cases token with
      | word word => exact absurd rfl (parted _ rfl trivial)
      | quoted mark body =>
        cases first
        exact isWordChar_quoteMark mark
      | operator op =>
        cases first
        exact isWordChar_operator op

theorem Spells.blanks {tokens : List Token} {text front : Word}
    (blank : ∀ c ∈ front, isBlank c = true) (spells : Spells tokens text) :
    Spells tokens (front ++ text) := by
  induction front with
  | nil => exact spells
  | cons c front ih =>
    obtain ⟨first, blank⟩ := List.forall_mem_cons.1 blank
    exact .blank first (ih blank)

theorem IsCut.spells {text front : Word} {pieces : List (Token × Word)}
    (cut : IsCut text front pieces) : Spells (pieces.map Prod.fst) text := by
  induction pieces generalizing text front with
  | nil =>
    obtain ⟨rfl, blank, -, -⟩ := cut
    exact Spells.nil.blanks (blank front (.head _))
  | cons piece pieces ih =>
    obtain ⟨token, gap⟩ := piece
    obtain ⟨rfl, blank, proper, apart⟩ := cut
    obtain ⟨blank_front, blank⟩ := List.forall_mem_cons.1 blank
    obtain ⟨first, proper⟩ := List.forall_mem_cons.1 proper
    have rest : IsCut (gap ++ pieces.flatMap fun piece => piece.1.text ++ piece.2) gap pieces :=
      ⟨rfl, blank, proper, apart.tail⟩
    refine .blanks blank_front ?_
    rw [List.flatMap_cons, List.append_assoc, List.map_cons]
    cases token with
    | operator op => exact .operator op (ih rest)
    | quoted mark body => simpa [Token.text] using Spells.quoted mark first (ih rest)
    | word word =>
      refine .word first.1 first.2 (rest.endsWord fun next found isWord => ?_) (ih rest)
      exact apart.rel_head? found trivial isWord

theorem IsCut.blank_cons {text front : Word} {pieces : List (Token × Word)}
    (cut : IsCut text front pieces) {c : Char} (blank : isBlank c = true) :
    IsCut (c :: text) (c :: front) pieces := by
  obtain ⟨rfl, blank_front, proper, apart⟩ := cut
  obtain ⟨first, others⟩ := List.forall_mem_cons.1 blank_front
  exact ⟨rfl, List.forall_mem_cons.2 ⟨List.forall_mem_cons.2 ⟨blank, first⟩, others⟩, proper, apart⟩

theorem IsCut.token_cons {text front : Word} {pieces : List (Token × Word)}
    (cut : IsCut text front pieces) (token : Token) (proper : token.IsProper)
    (ends : token.IsWord → EndsWord text) :
    IsCut (token.text ++ text) [] ((token, front) :: pieces) := by
  refine ⟨by simp [cut.text_eq], ?_, List.forall_mem_cons.2 ⟨proper, cut.proper⟩, ?_⟩
  · exact List.forall_mem_cons.2 ⟨nofun, cut.blank⟩
  · refine List.isChain_cons.2 ⟨?_, cut.apart⟩
    rintro ⟨next, gap⟩ found isWord isWord' rfl
    cases next with
    | quoted | operator => exact isWord'
    | word word =>
      -- The text begins with the second word, where the first one would have to end.
      obtain ⟨nonempty, plain⟩ := cut.proper _ (List.mem_of_mem_head? found)
      obtain ⟨c, word, rfl⟩ := List.exists_cons_of_ne_nil nonempty
      obtain ⟨others, rfl⟩ := List.head?_eq_some_iff.1 found
      have stops := ends isWord c (by simp [cut.text_eq, Token.text])
      rw [plain c (.head _)] at stops
      cases stops

theorem Spells.exists_isCut {tokens : List Token} {text : Word} (spells : Spells tokens text) :
    ∃ front pieces, IsCut text front pieces ∧ pieces.map Prod.fst = tokens := by
  induction spells with
  | nil => exact ⟨[], [], ⟨rfl, by simp, nofun, .nil⟩, rfl⟩
  | blank blank _ ih =>
    obtain ⟨front, pieces, cut, rfl⟩ := ih
    exact ⟨_ :: front, pieces, cut.blank_cons blank, rfl⟩
  | operator op _ ih =>
    obtain ⟨front, pieces, cut, rfl⟩ := ih
    exact ⟨[], _, cut.token_cons (.operator op) trivial nofun, rfl⟩
  | @quoted mark body _ _ free _ ih =>
    obtain ⟨front, pieces, cut, rfl⟩ := ih
    have cut := cut.token_cons (.quoted mark body) free nofun
    exact ⟨[], _, by simpa [Token.text] using cut, rfl⟩
  | word nonempty plain ends _ ih =>
    obtain ⟨front, pieces, cut, rfl⟩ := ih
    exact ⟨[], _, cut.token_cons (.word _) ⟨nonempty, plain⟩ fun _ => ends, rfl⟩

def Cuts (tokens : List Token) (text : Word) : Prop :=
  ∃ front pieces, IsCut text front pieces ∧ pieces.map Prod.fst = tokens

theorem spells_iff_cuts {tokens : List Token} {text : Word} :
    Spells tokens text ↔ Cuts tokens text := by
  constructor
  · exact Spells.exists_isCut
  · rintro ⟨front, pieces, cut, rfl⟩
    exact cut.spells

theorem scan_eq_some_iff_cuts {tokens : List Token} {text : Word} :
    scan text = some tokens ↔ Cuts tokens text :=
  scan_eq_some_iff.trans spells_iff_cuts

/-- The characters that are not blank. -/
def visible (text : Word) : Word := text.filter (!isBlank ·)

theorem visible_append (first second : Word) :
    visible (first ++ second) = visible first ++ visible second :=
  List.filter_append ..

theorem visible_of_blank {gap : Word} (blank : ∀ c ∈ gap, isBlank c = true) : visible gap = [] := by
  simpa [visible] using blank

theorem visible_pieces {pieces : List (Token × Word)}
    (blank : ∀ gap ∈ pieces.map Prod.snd, ∀ c ∈ gap, isBlank c = true) :
    visible (pieces.flatMap fun piece => piece.1.text ++ piece.2) =
      visible ((pieces.map Prod.fst).flatMap Token.text) := by
  induction pieces with
  | nil => rfl
  | cons piece pieces ih =>
    obtain ⟨blank_gap, blank⟩ := List.forall_mem_cons.1 blank
    rw [List.flatMap_cons, List.map_cons, List.flatMap_cons]
    simp only [visible_append, visible_of_blank blank_gap, List.append_nil, ih blank]

theorem IsCut.visible_eq {text front : Word} {pieces : List (Token × Word)}
    (cut : IsCut text front pieces) :
    visible text = visible ((pieces.map Prod.fst).flatMap Token.text) := by
  obtain ⟨blank_front, blank⟩ := List.forall_mem_cons.1 cut.blank
  rw [cut.text_eq, visible_append, visible_of_blank blank_front, List.nil_append,
    visible_pieces blank]

/-- A text that ends inside a quotation is rejected, and so is no other. Any other text is the
tokens that the scanner finds with blanks put between them, and those are the only tokens of which
that can be said; nothing but blanks is left out. -/
theorem cut_uniquely (text : Word) :
    (scan text = none ↔ atEnd text ≠ none) ∧
      (∀ line : Line,
        (line.parse text).error? = some .unterminatedQuote ↔ atEnd text ≠ none) ∧
      (atEnd text = none → ∃ tokens, scan text = some tokens ∧ Cuts tokens text) ∧
      (∀ tokens, Cuts tokens text → scan text = some tokens) ∧
      ∀ tokens, scan text = some tokens → visible text = visible (tokens.flatMap Token.text) := by
  have rejected : scan text = none ↔ atEnd text ≠ none := by
    rw [Ne, atEnd_eq_none_iff, ← Option.ne_none_iff_exists', ne_eq, not_not]
  refine ⟨rejected, fun line => ?_, fun closed => ?_, fun tokens => scan_eq_some_iff_cuts.2, ?_⟩
  · rw [Grammar.unterminatedQuote_iff, ← scan_eq_none_iff, rejected]
  · obtain ⟨tokens, scanned⟩ := atEnd_eq_none_iff.1 closed
    exact ⟨tokens, scanned, scan_eq_some_iff_cuts.1 scanned⟩
  · intro tokens scanned
    obtain ⟨front, pieces, cut, rfl⟩ := scan_eq_some_iff_cuts.1 scanned
    exact cut.visible_eq

/-- Words may touch quotations and operators, and a quotation may hold the other mark. -/
example : scan "é\"it's\">b c".toList = some [.word ['é'], .quoted .double "it's".toList,
    .operator .greater, .word ['b'], .word ['c']] := by
  decide +kernel

end Token

end PipelineShell
