import PipelineShell.Proofs.Line.Grammar

namespace PipelineShell.Grammar

structure Site where
  closed : List Statement
  current : Option Statement
  flags : Flags

def addItem (statement : Statement) : Item → Statement
  | .argument operand => { statement with pipeline := statement.pipeline.push operand.value }
  | .redirection .input target => { statement with input := some target.value }
  | .redirection .output target => { statement with output := some target.value }

namespace Site

def line (site : Site) : Line := ⟨site.closed ++ site.current.toList, site.flags⟩

def read (site : Site) (tokens : List Token) : Reading :=
  site.line.parseTokens site.current.isSome tokens

def lacks (site : Site) : Bool := site.current.all (·.pipeline.last.isEmpty)

def add (site : Site) (item : Item) : Site :=
  { site with current := some (addItem (site.current.getD {}) item) }

def extend (site : Site) : Site :=
  { site with current := site.current.map fun s => { s with pipeline := s.pipeline.extend } }

def close (site : Site) : Terminator → Site
  | .semicolon => ⟨site.closed ++ site.current.toList, none, site.flags⟩
  | .ampersand =>
    ⟨site.closed ++ (site.current.map fun s => { s with background := true }).toList, none,
      site.flags⟩

theorem lacksCommand_line (site : Site) :
    site.line.lacksCommand site.current.isSome = site.lacks := by
  obtain ⟨closed, current, flags⟩ := site
  cases current <;> simp [line, lacks, Line.lacksCommand, Line.current?]

theorem read_nil (site : Site) :
    site.read [] = ⟨site.line, if site.current.isSome && site.lacks then some (.emptyCommand none)
      else none⟩ := by
  simp only [read, Line.parseTokens, lacksCommand_line]
  split <;> rfl

theorem read_item (site : Site) (item : Item) (rest : List Token)
    (h : site.current = none → item ≠ .argument exitWord) :
    site.read (item.tokens ++ rest) = (site.add item).read rest := by
  obtain ⟨closed, current, flags⟩ := site
  cases item with
  | argument operand =>
    cases operand with
    | word text =>
      cases current with
      | none =>
        have noExit : text ≠ ['e', 'x', 'i', 't'] := fun equal => h rfl (by rw [equal]; rfl)
        simp [read, line, add, addItem, Item.tokens, Operand.token, Operand.value,
          Line.parseTokens, noExit, Line.opened, Line.appendStatement, Line.appendArgument,
          Line.modifyPipeline, Line.orNew, Line.modifyCurrent]
      | some statement =>
        simp [read, line, add, addItem, Item.tokens, Operand.token, Operand.value,
          Line.parseTokens, Line.opened, Line.appendArgument, Line.modifyPipeline, Line.orNew,
          Line.modifyCurrent]
    | quoted mark body =>
      cases current <;>
        simp [read, line, add, addItem, Item.tokens, Operand.token, Operand.value,
          Line.parseTokens, Line.opened, Line.appendStatement, Line.appendArgument,
          Line.modifyPipeline, Line.orNew, Line.modifyCurrent, stripDelimiters_text_quoted]
  | redirection direction target =>
    cases direction <;> cases target <;> cases current <;>
      simp [read, line, add, addItem, Item.tokens, Operand.token, Operand.value,
        Direction.operator, Line.parseTokens, Line.opened, Line.appendStatement, Line.redirect,
        Line.setInput, Line.setOutput, Line.modifyCurrent]

theorem read_exit (site : Site) (ignored : List Token) (h : site.current = none) :
    site.read (exitWord.token :: ignored) = ⟨site.line.requestExit, none⟩ := by
  simp [read, h, exitWord, Operand.token, Line.parseTokens]

theorem read_bar (site : Site) (rest : List Token) :
    site.read (.operator .pipe :: rest) =
      if site.lacks then ⟨site.line, some (.emptyCommand (some .pipe))⟩
      else site.extend.read rest := by
  simp only [read, Line.parseTokens, lacksCommand_line]
  split
  · rfl
  · obtain ⟨closed, current, flags⟩ := site
    cases current <;>
      simp_all [lacks, line, extend, Line.appendStage, Line.modifyPipeline, Line.orNew,
        Line.modifyCurrent]

theorem read_terminator (site : Site) (terminator : Terminator) (rest : List Token) :
    site.read (.operator terminator.operator :: rest) =
      if site.lacks then ⟨site.line, some (.emptyCommand (some terminator.operator))⟩
      else (site.close terminator).read rest := by
  cases terminator <;>
    simp only [read, Terminator.operator, Line.parseTokens, lacksCommand_line] <;> split
  · rfl
  · simp [close, line]
  · rfl
  · rename_i stage
    obtain ⟨closed, current, flags⟩ := site
    cases current with
    | none => exact absurd rfl stage
    | some statement => simp [line, close, Line.setBackground, Line.modifyCurrent]

theorem read_dangling (site : Site) (direction : Direction) (rest : List Token)
    (h : ∀ operand : Operand, rest.head? ≠ some operand.token) :
    site.read (.operator direction.operator :: rest) =
      ⟨site.line, some (.missingTarget direction.operator)⟩ := by
  have noWord : ∀ text, rest.head? ≠ some (.word text) := fun text => h (.word text)
  have noQuoted : ∀ mark body, rest.head? ≠ some (.quoted mark body) :=
    fun mark body => h (.quoted mark body)
  cases direction <;> cases rest with
  | nil => rfl
  | cons token rest => cases token <;> simp_all [read, Direction.operator, Line.parseTokens]

end Site

end PipelineShell.Grammar
