/-!
# Similar words

The Jaro similarity of two words, as an exact fraction. It finds the option that a mistyped one was
meant to be.
-/

namespace PipelineShell.Similarity

structure Score where
  numerator : Nat
  denominator : Nat
deriving Repr, DecidableEq

def Score.exceeds (a b : Score) : Bool :=
  b.numerator * a.denominator < a.numerator * b.denominator

def claim (c : Char) (low high : Nat) : Nat → List (Char × Bool) → Option (List (Char × Bool))
  | _, [] => none
  | i, (d, taken) :: rest =>
    if low ≤ i && i < high && c == d && !taken then some ((d, true) :: rest)
    else (claim c low high (i + 1) rest).map ((d, taken) :: ·)

/-- Matches the characters of one word with those of the other, each at most `range` places off.
Returns the matched characters of the first word in order, and the marks of the second. -/
def matching (range : Nat) : Nat → List Char → List (Char × Bool) →
    List Char × List (Char × Bool)
  | _, [], marks => ([], marks)
  | i, c :: rest, marks =>
    match claim c (i - range) (i + range + 1) 0 marks with
    | some marks =>
      let (matched, marks) := matching range (i + 1) rest marks
      (c :: matched, marks)
    | none => matching range (i + 1) rest marks

/-- The Jaro similarity: the mean of the matched share of each word and of the share of the
matches that are in the same order in both. -/
def jaro (a b : List Char) : Score :=
  if a.isEmpty && b.isEmpty then ⟨1, 1⟩
  else
    let (matched, marks) := matching (max a.length b.length / 2 - 1) 0 a (b.map (·, false))
    let others := (marks.filter (·.2)).map (·.1)
    let m := matched.length
    let outOfOrder := ((matched.zip others).filter fun (c, d) => c != d).length / 2
    if m = 0 then ⟨0, 1⟩
    else
      let x := a.length
      let y := b.length
      ⟨m * y * m + m * x * m + (m - outOfOrder) * x * y, 3 * x * y * m⟩

def closest? (word : List Char) (candidates : List String) : Option String :=
  (candidates.foldl (fun best candidate =>
    let score := jaro word candidate.toList
    if score.exceeds ⟨7, 10⟩ && !(best.any fun (_, s) => s.exceeds score) then
      some (candidate, score)
    else best) (none : Option (String × Score))).map (·.1)

example : closest? "sequentia".toList ["command", "sequential", "debug"] = some "sequential" := by
  decide +kernel

end PipelineShell.Similarity
