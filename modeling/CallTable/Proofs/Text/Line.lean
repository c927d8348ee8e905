import CallTable.Text.Blank
import CallTable.Text.Line
import CallTable.Text.Scan

/-!
# Lines of a text

A line stands in the text from which it is cut, holds no line feed, and is the only line of itself.
-/

namespace CallTable.Text

/-- A line of a text stands in the text. -/
theorem infix_of_mem_lines {text line : List Char} (h : line ∈ Text.lines text) :
    line <:+: text := by
  have hjoined : ['\n'].intercalate (Text.lines text) = text := List.intercalate_splitOn '\n'
  exact hjoined ▸ infix_intercalate h

/-- A line holds no line feed. -/
theorem feed_not_mem_of_mem_lines {text line : List Char} (h : line ∈ Text.lines text) :
    '\n' ∉ line := by
  rw [Text.lines, List.splitOn_eq_splitOnP] at h
  exact fun hc => absurd (eq_false_of_mem_splitOnP h _ hc) (by simp)

/-- A text without line feeds is its only line. -/
theorem lines_of_not_mem {line : List Char} (h : '\n' ∉ line) : Text.lines line = [line] :=
  List.splitOn_eq_singleton h

end CallTable.Text
