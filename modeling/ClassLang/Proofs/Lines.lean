import ClassLang.Script.Statement
import Mathlib.Data.List.Basic
import Mathlib.Logic.Function.Iterate

/-!
# Lines and levels

A text one level deeper has a tab at the front of each of its lines.  Where the
first line stands in the middle of another line, as in the script of a statement,
it has no tab of its own: one follows every line feed.
-/

namespace ClassLang.Text

/-- The lines of a text.  A line feed ends every line but the last. -/
def lines (text : String) : List String :=
  (text.toList.splitOn '\n').map String.ofList

/-- The text of some lines, each with a line feed at its end. -/
def unlines (lines : List String) : String :=
  String.join (lines.map (· ++ "\n"))

/-- The text with a tab behind every line feed. -/
def nested (text : String) : String :=
  String.ofList (text.toList.flatMap fun c => if c = '\n' then ['\n', '\t'] else [c])

/-- The lines of a text that stand between the first line that is `opening` and
the next one that is `closing`. -/
def linesBetween (opening closing text : String) : List String :=
  (((lines text).dropWhile (· ≠ opening)).drop 1).takeWhile (· ≠ closing)

/-! ## Lines -/

/-- A text is one line, or it has a first line and goes on behind it. -/
theorem line_induction {motive : String → Prop}
    (single : ∀ line : String, '\n' ∉ line.toList → motive line)
    (cons : ∀ line rest : String, '\n' ∉ line.toList → motive rest → motive (line ++ "\n" ++ rest))
    (text : String) : motive text := by
  suffices hchars : ∀ chars : List Char, motive (String.ofList chars) by
    simpa using hchars text.toList
  intro chars
  induction hlength : chars.length using Nat.strongRecOn generalizing chars with
  | ind length ih =>
    by_cases hmem : '\n' ∈ chars
    · obtain ⟨line, rest, rfl, hline⟩ := List.eq_append_cons_of_mem hmem
      have hshort : rest.length < length := by
        rw [← hlength, List.length_append, List.length_cons]
        omega
      have htext := cons (String.ofList line) (String.ofList rest) (by simpa using hline)
        (ih rest.length hshort rest rfl)
      have happend : String.ofList line ++ "\n" ++ String.ofList rest =
          String.ofList (line ++ '\n' :: rest) := by
        simp [← String.toList_inj]
      rwa [happend] at htext
    · exact single _ (by simpa using hmem)

/-- A line break keeps the lines on both sides apart. -/
theorem lines_append_newline (left right : String) :
    lines (left ++ "\n" ++ right) = lines left ++ lines right := by
  have htext : (left ++ "\n" ++ right).toList = left.toList ++ '\n' :: right.toList := by simp
  rw [lines, htext, List.splitOn_append_cons_self, List.map_append]
  rfl

theorem lines_of_not_mem {text : String} (hline : '\n' ∉ text.toList) : lines text = [text] := by
  rw [lines, List.splitOn_eq_singleton hline]
  simp

theorem not_mem_of_mem_lines {text line : String} (hmem : line ∈ lines text) :
    '\n' ∉ line.toList := by
  induction text using line_induction with
  | single text htext =>
    rw [lines_of_not_mem htext, List.mem_singleton] at hmem
    rwa [hmem]
  | cons first rest hfirst ih =>
    rw [lines_append_newline, lines_of_not_mem hfirst, List.mem_append, List.mem_singleton] at hmem
    rcases hmem with rfl | hmem
    · exact hfirst
    · exact ih hmem

@[simp]
theorem unlines_nil : unlines [] = "" := rfl

@[simp]
theorem unlines_cons (line : String) (rest : List String) :
    unlines (line :: rest) = line ++ "\n" ++ unlines rest := by
  rw [unlines, List.map_cons, String.join_cons]
  rfl

@[simp]
theorem unlines_append (first last : List String) :
    unlines (first ++ last) = unlines first ++ unlines last := by
  rw [unlines, List.map_append, String.join_append]
  rfl

/-- The lines of a text make up the text, with a line break at the end. -/
theorem unlines_lines (text : String) : unlines (lines text) = text ++ "\n" := by
  induction text using line_induction with
  | single text htext => simp [lines_of_not_mem htext]
  | cons first rest hfirst ih =>
    rw [lines_append_newline, lines_of_not_mem hfirst, unlines_append, ih]
    simp [String.append_assoc]

/-- Lines that were put together come apart again. -/
theorem lines_unlines_append {texts : List String} (hlines : ∀ line ∈ texts, '\n' ∉ line.toList)
    (rest : String) : lines (unlines texts ++ rest) = texts ++ lines rest := by
  induction texts with
  | nil => simp
  | cons line texts ih =>
    rw [List.forall_mem_cons] at hlines
    calc
      lines (unlines (line :: texts) ++ rest) =
          lines (line ++ "\n" ++ (unlines texts ++ rest)) := by
        rw [unlines_cons, String.append_assoc]
      _ = line :: texts ++ lines rest := by
        rw [lines_append_newline, lines_of_not_mem hlines.1, ih hlines.2]
        rfl

/-- What stands between the first opening line and the next closing one. -/
theorem linesBetween_eq {text opening closing : String} {before between after : List String}
    (hlines : lines text = before ++ opening :: (between ++ closing :: after))
    (hopening : opening ∉ before) (hclosing : closing ∉ between) :
    linesBetween opening closing text = between := by
  have hbefore : ∀ line ∈ before, decide (line ≠ opening) = true := by
    intro line hmem
    exact decide_eq_true fun heq => hopening (heq ▸ hmem)
  have hbetween : ∀ line ∈ between, decide (line ≠ closing) = true := by
    intro line hmem
    exact decide_eq_true fun heq => hclosing (heq ▸ hmem)
  rw [linesBetween, hlines, List.dropWhile_append_of_pos hbefore,
    List.dropWhile_cons_of_neg (by simp), List.drop_one, List.tail_cons,
    List.takeWhile_append_of_pos hbetween, List.takeWhile_cons_of_neg (by simp), List.append_nil]

theorem linesBetween_unlines {opening closing : String} {before between : List String}
    (hlines : ∀ line ∈ before ++ opening :: (between ++ [closing]), '\n' ∉ line.toList)
    (hopening : opening ∉ before) (hclosing : closing ∉ between) (after : List String)
    (rest : String) :
    linesBetween opening closing
      (unlines (before ++ opening :: (between ++ closing :: after)) ++ rest) = between := by
  have htext : unlines (before ++ opening :: (between ++ closing :: after)) ++ rest =
      unlines (before ++ opening :: (between ++ [closing])) ++ (unlines after ++ rest) := by
    simp [String.append_assoc]
  have hsplit : lines (unlines (before ++ opening :: (between ++ closing :: after)) ++ rest) =
      before ++ opening :: (between ++ closing :: lines (unlines after ++ rest)) := by
    rw [htext, lines_unlines_append hlines]
    simp
  exact linesBetween_eq hsplit hopening hclosing

/-! ## Levels -/

@[simp]
theorem nested_append (left right : String) :
    nested (left ++ right) = nested left ++ nested right := by
  simp [nested, String.ofList_append]

theorem nested_of_not_mem {text : String} (hline : '\n' ∉ text.toList) : nested text = text := by
  have hsame : ∀ c ∈ text.toList, (if c = '\n' then ['\n', '\t'] else [c]) = [c] := by
    intro c hmem
    apply if_neg
    rintro rfl
    exact hline hmem
  rw [nested, List.flatMap_congr hsame]
  simp

/-- Nesting a text indents each of its lines. -/
theorem lines_tab_nested (text : String) :
    lines ("\t" ++ nested text) = (lines text).map ("\t" ++ ·) := by
  have htab {line : String} (hline : '\n' ∉ line.toList) : '\n' ∉ ("\t" ++ line).toList := by
    simpa using hline
  induction text using line_induction with
  | single text htext =>
    rw [nested_of_not_mem htext, lines_of_not_mem (htab htext), lines_of_not_mem htext]
    rfl
  | cons first rest hfirst ih =>
    calc
      lines ("\t" ++ nested (first ++ "\n" ++ rest)) =
          lines ("\t" ++ first ++ "\n" ++ ("\t" ++ nested rest)) := by
        have hfeed : nested "\n" = "\n" ++ "\t" := by decide
        rw [nested_append, nested_append, nested_of_not_mem hfirst, hfeed]
        simp only [String.append_assoc]
      _ = (lines (first ++ "\n" ++ rest)).map ("\t" ++ ·) := by
        rw [lines_append_newline, lines_append_newline, ih, lines_of_not_mem (htab hfirst),
          lines_of_not_mem hfirst, List.map_append]
        rfl

end ClassLang.Text
