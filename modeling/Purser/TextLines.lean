import Mathlib.Algebra.GroupWithZero.Nat
import Mathlib.Algebra.BigOperators.Group.List.Basic
import Mathlib.Data.List.DropRight

/-!
# Text read line by line

Complete lines are taken from a buffer.  A measure of lines is additive at a cut
exactly when it is additive on the one line the cut goes through.
-/

namespace Purser.TextLines

open List

variable (c : Char) (text : List Char)

/-- The characters of the Unicode property `White_Space`. -/
def isWhitespace : Bool :=
  let value := c.toNat
  (9 ≤ value && value ≤ 13) || value == 0x20 || value == 0x85 ||
    value == 0xA0 || value == 0x1680 || (0x2000 ≤ value && value ≤ 0x200A) ||
    value == 0x2028 || value == 0x2029 || value == 0x202F ||
    value == 0x205F || value == 0x3000

def trimStart : List Char := text.dropWhile isWhitespace

def trimEnd : List Char := text.rdropWhile isWhitespace

def trim : List Char := trimEnd (trimStart text)

def trimEndMatches : List Char :=
  text.rdropWhile fun last => last == c

def strip : List Char → List Char → Option (List Char)
  | [], text => some text
  | _ :: _, [] => none
  | expected :: marker, c :: text =>
    if expected = c then strip marker text else none

def splitLines : List Char → List (List Char) × List Char
  | [] => ([], [])
  | c :: rest =>
    if c = '\n' then ([] :: (splitLines rest).1, (splitLines rest).2)
    else
      match splitLines rest with
      | ([], remainder) => ([], c :: remainder)
      | (line :: lines, remainder) => ((c :: line) :: lines, remainder)

/-- The complete lines and, as a last line, the remainder. -/
def allLines : List (List Char) := (splitLines text).1 ++ [(splitLines text).2]

def stripReturn (line : List Char) : List Char :=
  if line.getLast? = some '\r' then line.dropLast else line

/-- The lines of a text without their ends.  A remainder is a line unless it
is empty, and keeps a carriage return at its end. -/
def lines : List (List Char) := (splitLines text).1.map stripReturn ++
    if (splitLines text).2 = [] then [] else [(splitLines text).2]

def firstLine : List Char := (allLines text).headD []

def laterLines : List (List Char) := (allLines text).tail

@[simp]
theorem splitLines_nil : splitLines [] = ([], []) := rfl

theorem splitLines_append (first second : List Char) :
    splitLines (first ++ second) = ((splitLines first).1 ++
          (splitLines ((splitLines first).2 ++ second)).1,
        (splitLines ((splitLines first).2 ++ second)).2) := by
  induction first with
  | nil => simp
  | cons c rest induction =>
    by_cases feed : c = '\n'
    · simp [splitLines, feed, induction]
    · rcases cut : splitLines rest with ⟨_ | ⟨line, lines⟩, remainder⟩ <;>
        simp [splitLines, feed, induction, cut]

theorem allLines_append (first second : List Char) : allLines (first ++ second) =
      (splitLines first).1 ++ allLines ((splitLines first).2 ++ second) := by
  simp [allLines, splitLines_append first second]

theorem splitLines_remainder : splitLines (splitLines text).2 = ([], (splitLines text).2) := by
  induction text with
  | nil => rfl
  | cons c rest induction =>
    by_cases feed : c = '\n'
    · simpa [splitLines, feed] using induction
    · rcases cut : splitLines rest with ⟨_ | ⟨line, lines⟩, remainder⟩
      · rw [cut] at induction
        simp [splitLines, feed, cut, induction]
      · simpa [splitLines, feed, cut] using induction

theorem allLines_eq_cons : allLines text = firstLine text :: laterLines text := by
  rcases cut : splitLines text with ⟨_ | ⟨line, lines⟩, remainder⟩ <;>
    simp [firstLine, laterLines, allLines, cut]

theorem allLines_continued {opened : List Char} (unbroken : splitLines opened = ([], opened))
    (text : List Char) :
    allLines (opened ++ text) = (opened ++ firstLine text) :: laterLines text := by
  induction opened with
  | nil => simpa using allLines_eq_cons text
  | cons c rest induction =>
    by_cases feed : c = '\n'
    · simp [splitLines, feed] at unbroken
    · rcases cut : splitLines rest with ⟨_ | ⟨line, lines⟩, remainder⟩
      · rcases cutAll : splitLines (remainder ++ text) with
          ⟨_ | ⟨line, lines⟩, last⟩ <;>
        · simp_all [allLines, splitLines]
      · simp [splitLines, feed, cut] at unbroken

theorem remainder_continued {opened : List Char} (unbroken : splitLines opened = ([], opened))
    {text : List Char} (ended : (splitLines (opened ++ text)).1 ≠ []) :
    (splitLines (opened ++ text)).2 = (splitLines text).2 := by
  have continued := allLines_continued unbroken text
  have lines_eq := allLines_eq_cons text
  rw [allLines] at continued lines_eq
  have later : laterLines text ≠ [] := by
    intro none
    rw [none] at continued
    have single := congrArg List.length continued
    simp only [length_append, length_singleton] at single
    exact ended (length_eq_zero_iff.mp (by omega))
  have last := congrArg List.getLast? continued
  have lastText := congrArg List.getLast? lines_eq
  rw [getLast?_cons_of_ne_nil later] at last lastText
  rw [← last] at lastText
  simpa using lastText.symm

variable {c : Char}

theorem trimStart_concat (blank : isWhitespace c = true) (text : List Char) :
    trimStart (text ++ [c]) =
      if trimStart text = [] then [] else trimStart text ++ [c] := by
  rw [trimStart, dropWhile_append]
  simp [trimStart, blank]

theorem trim_concat (blank : isWhitespace c = true) (text : List Char) :
    trim (text ++ [c]) = trim text := by
  rw [trim, trimStart_concat blank]
  split
  case isTrue none => simp [trim, none]
  case isFalse => exact rdropWhile_concat_pos _ _ _ blank

theorem strip_concat {marker : List Char} (other : c ∉ marker) (text : List Char) :
    strip marker (text ++ [c]) = (strip marker text).map fun rest => rest ++ [c] := by
  induction marker generalizing text with
  | nil => rfl
  | cons expected _ induction =>
    obtain ⟨different, others⟩ := not_or.mp (mem_cons.not.mp other)
    cases text with
    | nil => simp [strip, Ne.symm different]
    | cons first =>
      by_cases same : expected = first
      · simp [strip, same, induction others]
      · simp [strip, same]

section Measures

variable (weight : List Char → ℕ)

def weigh (text : List Char) : ℕ := ((allLines text).map weight).sum

def Seam (first second : List Char) : Prop := weight ((splitLines first).2 ++ firstLine second) =
    weight (splitLines first).2 + weight (firstLine second)

instance (first second : List Char) : Decidable (Seam weight first second) :=
  inferInstanceAs (Decidable (_ = _))

/-- Every cut between two pieces of a text is a seam. -/
def Seams : List (List Char) → Prop
  | [] => True
  | text :: texts => Seam weight text texts.flatten ∧ Seams texts

instance Seams.decidable :
    (texts : List (List Char)) → Decidable (Seams weight texts)
  | [] => isTrue trivial
  | text :: texts =>
    have := Seams.decidable texts
    inferInstanceAs (Decidable (Seam weight text texts.flatten ∧ _))

variable {weight}

theorem weigh_eq_first (text : List Char) :
    weigh weight text = weight (firstLine text) + ((laterLines text).map weight).sum := by
  rw [weigh, allLines_eq_cons, map_cons, sum_cons]

theorem weigh_append {first second : List Char} (seam : Seam weight first second) :
    weigh weight (first ++ second) = weigh weight first + weigh weight second := by
  unfold Seam at seam
  rw [weigh, allLines_append, allLines_continued (splitLines_remainder first) second,
    weigh_eq_first second, weigh, allLines]
  simp only [map_append, sum_append, map_cons, sum_cons, map_nil, sum_nil]
  omega

theorem weigh_flatten {texts : List (List Char)} (empty : weight [] = 0)
    (seams : Seams weight texts) : weigh weight texts.flatten = (texts.map (weigh weight)).sum := by
  induction texts with
  | nil => simpa [weigh, allLines] using empty
  | cons _ _ induction =>
    rw [flatten_cons, weigh_append seams.1, induction seams.2, map_cons, sum_cons]

/-- A measure that ignores a carriage return at the end of a line and gives
the empty line nothing can be summed over `lines`. -/
theorem sum_lines (empty : weight [] = 0)
    (unmoved : ∀ line, weight (stripReturn line) = weight line) (text : List Char) :
    ((lines text).map weight).sum = weigh weight text := by
  have complete : ((splitLines text).1.map stripReturn).map weight =
      (splitLines text).1.map weight := by
    simp [Function.comp_def, unmoved]
  by_cases closed : (splitLines text).2 = [] <;>
    simp [lines, weigh, allLines, complete, closed, empty]

end Measures

example : lines ("a\r\nb\n\nc".toList) = [['a'], ['b'], [], ['c']] := by decide

end Purser.TextLines
