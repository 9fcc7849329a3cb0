import PipelineShell.Proofs.Line.Storage

namespace PipelineShell

theorem Word.byteLength_eq_one_iff {text : Word} :
    byteLength text = 1 ↔ ∃ c, text = [c] ∧ c.utf8Size = 1 := by
  constructor
  · intro length
    cases text with
    | nil => cases length
    | cons c rest =>
      have positive := c.utf8Size_pos
      rw [byteLength_cons] at length
      obtain rfl : rest = [] := eq_nil_of_byteLength (by omega)
      exact ⟨c, rfl, by simpa using length⟩
  · rintro ⟨c, rfl, width⟩
    simpa using width

namespace Piece

variable {text body : Word}

theorem unquote?_eq_some_iff : unquote? text = some body ↔
    ∃ first last, text = first :: (body ++ [last]) ∧ first.utf8Size = 1 ∧ last.utf8Size = 1 := by
  constructor
  · intro unquoted
    obtain ⟨stop, before, sliced⟩ := Option.bind_eq_some_iff.1 unquoted
    obtain ⟨front, back, rfl, front_length, stop_eq⟩ := Word.slice?_eq_some_iff.1 sliced
    have length : (front ++ body ++ back).byteLength = stop + 1 := by
      cases total : (front ++ body ++ back).byteLength with
      | zero =>
        rw [total] at before
        cases before
      | succ count =>
        rw [total] at before
        cases before
        rfl
    rw [Word.byteLength_append, stop_eq] at length
    obtain ⟨first, rfl, first_width⟩ := Word.byteLength_eq_one_iff.1 front_length
    obtain ⟨last, rfl, last_width⟩ := Word.byteLength_eq_one_iff.1 (Nat.add_left_cancel length)
    exact ⟨first, last, rfl, first_width, last_width⟩
  · rintro ⟨first, last, rfl, first_width, last_width⟩
    have length : Word.byteLength (first :: (body ++ [last])) = 1 + body.byteLength + 1 := by
      simp [first_width, last_width, Nat.add_assoc]
    rw [unquote?, length, indexBefore?, Option.bind_some]
    exact Word.slice?_eq_some_iff.2 ⟨[first], [last], rfl, by simp [first_width],
      by simp [first_width]⟩

theorem stripDelimiters_of_unquote? (unquoted : unquote? text = some body) :
    stripDelimiters text = body := by
  obtain ⟨first, last, rfl, -⟩ := unquote?_eq_some_iff.1 unquoted
  rw [stripDelimiters, List.tail_cons, List.dropLast_concat]

example : unquote? ['«', 'é', '»'] = none ∧ stripDelimiters ['«', 'é', '»'] = ['é'] := by decide

end Piece

namespace Token

theorem EndsWord.of_append {front back : Word} (ends : EndsWord (front ++ back)) :
    EndsWord front := by
  cases front with
  | nil => exact nofun
  | cons c front => exact ends

theorem Spells.exists_around {tokens : List Token} {text : Word} (spells : Spells tokens text)
    {before after : List Token} {token : Token} (found : tokens = before ++ token :: after) :
    ∃ front back, text = front ++ (token.text ++ back) ∧ Spells before front ∧
      Spells after back := by
  -- Blanks in front of the token belong to the text before it.
  induction spells generalizing before with
  | nil => simp at found
  | blank blank _ ih =>
    obtain ⟨front, back, rfl, spells, spells'⟩ := ih found
    exact ⟨_ :: front, back, rfl, .blank blank spells, spells'⟩
  | @operator op tokens text rest ih =>
    cases before with
    | nil =>
      cases found
      exact ⟨[], text, rfl, .nil, rest⟩
    | cons first before =>
      obtain ⟨rfl, later⟩ := List.cons.inj found
      obtain ⟨front, back, rfl, spells, spells'⟩ := ih later
      exact ⟨op.char :: front, back, rfl, .operator op spells, spells'⟩
  | @quoted mark body tokens text free rest ih =>
    cases before with
    | nil =>
      cases found
      exact ⟨[], text, by simp [Token.text], .nil, rest⟩
    | cons first before =>
      obtain ⟨rfl, later⟩ := List.cons.inj found
      obtain ⟨front, back, rfl, spells, spells'⟩ := ih later
      exact ⟨_, back, by simp, .quoted mark free spells, spells'⟩
  | @word word tokens text nonempty plain ends rest ih =>
    cases before with
    | nil =>
      cases found
      exact ⟨[], text, rfl, .nil, rest⟩
    | cons first before =>
      obtain ⟨rfl, later⟩ := List.cons.inj found
      obtain ⟨front, back, rfl, spells, spells'⟩ := ih later
      exact ⟨_, back, by simp, .word nonempty plain ends.of_append spells, spells'⟩

end Token

namespace Line

def lastArgument? (line : Line) : Option Word :=
  line.current?.bind (·.pipeline.last.args.getLast?)

theorem lastArgument?_modifyPipeline_push (line : Line) (arg : Word) :
    (line.modifyPipeline (·.push arg)).lastArgument? = some arg := by
  obtain ⟨earlier, statement, built⟩ := line.exists_last_orNew
  simp [lastArgument?, modifyPipeline, modifyCurrent, current?, built, Pipeline.push, Stage.push]

end Line

namespace Piece

theorem cut?_eq_ok_iff {text : Word} {pieces : List Piece} :
    cut? text (Cursor.startAt 0 text) = some (.ok pieces) ↔
      ∃ tokens, Token.Spells tokens text ∧ tokens.map ofToken = pieces := by
  rw [cut?_eq]
  constructor
  · intro cut
    cases scanned : Token.scan text with
    | none =>
      rw [scanned] at cut
      cases cut
    | some tokens =>
      rw [scanned] at cut
      cases cut
      exact ⟨tokens, Token.spells_of_scan scanned, rfl⟩
  · rintro ⟨tokens, spells, rfl⟩
    rw [spells.scan_eq]
    rfl

theorem eq_quoted_of_ofToken {token : Token} {quotation : Word}
    (same : ofToken token = quoted quotation) :
    ∃ mark body, token = .quoted mark body ∧ quotation = token.text := by
  cases token with
  | quoted mark body =>
    cases same
    exact ⟨mark, body, rfl, rfl⟩
  | word | operator => cases same

/-- Whatever text it was cut from, a quotation is a part of it from a mark to the next mark of the
same kind. Going by offsets never fails on it, and both ways of taking off the marks give what is
strictly between them. -/
theorem marks_come_off_alike {text quotation : Word} {before after : List Piece}
    (cut : cut? text (Cursor.startAt 0 text) = some (.ok (before ++ quoted quotation :: after))) :
    ∃ (mark : QuoteMark) (front body back : Word),
      text = front ++ mark.char :: (body ++ mark.char :: back) ∧ mark.char ∉ body ∧
      cut? front (Cursor.startAt 0 front) = some (.ok before) ∧
      cut? back (Cursor.startAt 0 back) = some (.ok after) ∧
      quotation = mark.char :: (body ++ [mark.char]) ∧
      unquote? quotation = some body ∧ stripDelimiters quotation = body ∧
      ∀ line : Line, (line.appendArgument quotation true).lastArgument? = some body := by
  obtain ⟨tokens, spells, parts⟩ := cut?_eq_ok_iff.1 cut
  obtain ⟨earlier, others, rfl, rfl, parts'⟩ := List.map_eq_append_iff.1 parts
  obtain ⟨token, later, rfl, same, rfl⟩ := List.map_eq_cons_iff.1 parts'
  obtain ⟨mark, body, rfl, rfl⟩ := eq_quoted_of_ofToken same
  obtain ⟨front, back, rfl, spells_front, spells_back⟩ := spells.exists_around rfl
  have free : (Token.quoted mark body).IsProper := spells.proper _ (by simp)
  have unquoted := unquote?_text mark body
  have stripped := stripDelimiters_of_unquote? unquoted
  refine ⟨mark, front, body, back, by simp [Token.text], free,
    cut?_eq_ok_iff.2 ⟨earlier, spells_front, rfl⟩, cut?_eq_ok_iff.2 ⟨later, spells_back, rfl⟩,
    rfl, unquoted, stripped, fun line => ?_⟩
  rw [Line.appendArgument, Line.lastArgument?_modifyPipeline_push, if_pos rfl, stripped]

theorem marks_come_off_alike_wide :
    let text : Word := ['é', '>', '"', '\'', 'ß', '"', '\'', '\'']
    cut? text (Cursor.startAt 0 text) = some (.ok ([word ['é'], operator .greater] ++
      quoted ['"', '\'', 'ß', '"'] :: [quoted ['\'', '\'']])) ∧
    ∃ (mark : QuoteMark) (front body back : Word),
      text = front ++ mark.char :: (body ++ mark.char :: back) ∧ mark.char ∉ body ∧
      cut? front (Cursor.startAt 0 front) = some (.ok [word ['é'], operator .greater]) ∧
      cut? back (Cursor.startAt 0 back) = some (.ok [quoted ['\'', '\'']]) ∧
      ['"', '\'', 'ß', '"'] = mark.char :: (body ++ [mark.char]) ∧
      unquote? ['"', '\'', 'ß', '"'] = some body ∧ stripDelimiters ['"', '\'', 'ß', '"'] = body ∧
      ∀ line : Line, (line.appendArgument ['"', '\'', 'ß', '"'] true).lastArgument? = some body := by
  intro text
  have plain : isWordChar 'é' = true := by decide +kernel
  have ends : Token.EndsWord text.tail := by
    rintro _ ⟨⟩
    rfl
  have spells : Token.Spells [.word ['é'], .operator .greater, .quoted .double ['\'', 'ß'],
      .quoted .single []] text :=
    .word (List.cons_ne_nil _ _) (by simpa using plain) ends (.operator .greater
      (.quoted .double (by decide) (.quoted .single List.not_mem_nil .nil)))
  have cut := cut?_eq_ok_iff.2 ⟨_, spells, rfl⟩
  exact ⟨cut, marks_come_off_alike cut⟩

end Piece

end PipelineShell
