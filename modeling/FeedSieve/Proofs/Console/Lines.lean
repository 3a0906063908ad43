/-
What is read of lines.

A line is meant to show its texts as they are, between the marks of the program's
own markup (`Line.meant`). All lines that are shown are framed: there is markup of
the program's own in them, which stands for itself, and one text at most. What is
read of a framed line is what it is meant to be if its text fits before what comes
behind it (`Framed.verbatim_iff`). Its tags are never others than those of the
program's own (`Framed.tagsIn_sublist`): a text cannot bring one in, only take one
away with the backslashes at its end.
-/
import FeedSieve.Console.Shown
import FeedSieve.Proofs.Text.Escaped

namespace FeedSieve.Console

open Markup (Mark Plain Whole marks shownText tagsIn)

variable {line rest : Line} {m t : Text}

-- ================================================================ lines

/-- What is meant to be read of a piece. -/
def Piece.meant : Piece → List Mark
  | raw markup => marks markup
  | text t => shownText t

/-- What is meant to be read of a line. -/
def Line.meant (line : Line) : List Mark := line.flatMap Piece.meant

/-- The lines in what is shown, with the heads of columns, which are shown as they
are. -/
def Shown.lines : Shown → List Line
  | .line l => [l]
  | .table title columns rows => title :: columns.map (fun head => [.raw head]) ++ rows.flatten
  | .panel l => [l]
  | .bar _ _ => []

theorem forall_lines_table {P : Line → Prop} {title : Line} {columns : List Text}
    {rows : List (List Line)} : (∀ l ∈ (Shown.table title columns rows).lines, P l)
      ↔ P title ∧ (∀ head ∈ columns, P [.raw head]) ∧ ∀ row ∈ rows, ∀ cell ∈ row, P cell := by
  rw [Shown.lines, List.forall_mem_append, List.forall_mem_cons, List.forall_mem_map, and_assoc]
  simp only [List.mem_flatten, forall_exists_index, and_imp]
  exact and_congr_right fun _ => and_congr_right fun _ =>
    ⟨fun h row hrow cell hcell => h cell row hrow hcell,
      fun h cell row hrow hcell => h row hrow cell hcell⟩

/-- Markup of the program's own, and nothing else. -/
inductive Own : Line → Prop
  | nil : Own []
  | raw {markup : Text} {rest : Line} (h : Whole markup) (hrest : Own rest) :
      Own (.raw markup :: rest)

/-- Markup of the program's own, and perhaps one text between it. -/
inductive Framed : Line → Prop
  | nil : Framed []
  | raw {markup : Text} {rest : Line} (h : Whole markup) (hrest : Framed rest) :
      Framed (.raw markup :: rest)
  | text {t : Text} {rest : Line} (hrest : Own rest) : Framed (.text t :: rest)

theorem Own.words (h : Plain t) (hrest : Own rest) : Own (.raw t :: rest) := .raw h.whole hrest

theorem Framed.words (h : Plain t) (hrest : Framed rest) : Framed (.raw t :: rest) :=
  .raw h.whole hrest

theorem Own.framed (h : Own line) : Framed line := by
  induction h with
  | nil => exact .nil
  | raw h hrest ih => exact .raw h ih

theorem Own.append (h : Own line) (hrest : Own rest) : Own (line ++ rest) := by
  induction h with
  | nil => exact hrest
  | raw h _ ih => exact .raw h ih

theorem Framed.append (h : Framed line) (hrest : Own rest) : Framed (line ++ rest) := by
  induction h with
  | nil => exact hrest.framed
  | raw h _ ih => exact .raw h ih
  | text hown => exact .text (hown.append hrest)

/-- A line stays framed when it is coloured. -/
theorem framed_inColour {colour : Text} (hcolour : Markup.dangles colour = true)
    (h : Framed line) : ∀ l ∈ (inColour colour line).lines, Framed l := by
  refine List.forall_mem_singleton.mpr (.raw ?_ (h.append (.raw ?_ .nil)))
  · show Whole ('[' :: (colour ++ [']']))
    exact .tag hcolour .nil
  · show Whole ('[' :: ('/' :: colour ++ [']']))
    exact .tag (Markup.dangles_slash hcolour) .nil

/-- The texts in a line fit before what comes behind them. -/
def Line.Fits : Line → Prop
  | [] => True
  | .raw _ :: rest => Line.Fits rest
  | .text t :: rest => Markup.Fits t (Line.markup rest) ∧ Line.Fits rest

theorem Line.markup_raw : Line.markup (.raw m :: rest) = m ++ Line.markup rest :=
  List.flatMap_cons

theorem Line.markup_text : Line.markup (.text t :: rest) = Markup.escape t ++ Line.markup rest :=
  List.flatMap_cons

theorem Line.meant_raw : Line.meant (.raw m :: rest) = marks m ++ Line.meant rest :=
  List.flatMap_cons

theorem Line.meant_text : Line.meant (.text t :: rest) = shownText t ++ Line.meant rest :=
  List.flatMap_cons

theorem Own.whole (h : Own line) : Whole line.markup := by
  induction h with
  | nil => exact .nil
  | raw h hrest ih => exact h.append ih

theorem Own.marks_eq (h : Own line) : marks line.markup = line.meant := by
  induction h with
  | nil => rfl
  | raw h hrest ih => rw [Line.markup_raw, Line.meant_raw, h.marks_append, ih]

theorem Own.fits (h : Own line) : line.Fits := by
  induction h with
  | nil => trivial
  | raw h hrest ih => exact ih

/-- A framed line is read as it is meant to be if its text fits. -/
theorem Framed.verbatim_iff (h : Framed line) : marks line.markup = line.meant ↔ line.Fits := by
  induction h with
  | nil => exact iff_of_true rfl trivial
  | raw h hrest ih =>
      rw [Line.markup_raw, Line.meant_raw, h.marks_append, List.append_right_inj]
      exact ih
  | text hrest =>
      rw [Line.markup_text, Line.meant_text, ← hrest.marks_eq, hrest.whole.marks_escape_iff]
      exact (and_iff_left hrest.fits).symm

/-- Its tags are of the program's own. -/
theorem Framed.tagsIn_sublist (h : Framed line) :
    (tagsIn (marks line.markup)).Sublist (tagsIn line.meant) := by
  induction h with
  | nil => exact List.Sublist.refl _
  | raw h hrest ih =>
      rw [Line.markup_raw, Line.meant_raw, h.marks_append, Markup.tagsIn_append,
        Markup.tagsIn_append]
      exact ih.append_left _
  | text hrest =>
      rw [Line.markup_text, Line.meant_text, ← hrest.marks_eq, Markup.tagsIn_shownText_append]
      exact hrest.whole.tagsIn_escape _

end FeedSieve.Console
