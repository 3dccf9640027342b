import Typeahead.Line.Highlight

/-!
Coloring loses no character of a line. The line as a palette shows it and the list of its segments are
made apart from each other and agree segment by segment.
-/
namespace Typeahead

variable {enabled : Bool} {line : Text}

/-! ## Segments -/

/-- The texts of the segments, read in order, are the line. -/
theorem flatMap_highlightSegments : (highlightSegments enabled line).flatMap Prod.snd = line := by
  cases enabled with
  | false => simp [highlightSegments]
  | true =>
    rw [highlightSegments, if_pos rfl, List.flatMap_map]
    exact List.flatMap_def.trans (Token.scan_values_flatten line)

theorem highlight_plain : highlight enabled .plain line = line := by
  cases enabled with
  | false => rfl
  | true => exact List.flatMap_def.trans (Token.scan_values_flatten line)

/-- A colored line is made of the segments, each one painted in its style. -/
theorem highlight_colored :
    highlight enabled .colored line =
      (highlightSegments enabled line).flatMap fun segment => segment.1.paint segment.2 := by
  cases enabled with
  | false => simp [highlight, highlightSegments, Style.paint]
  | true =>
    rw [highlight, if_pos rfl, highlightSegments, if_pos rfl, List.flatMap_map]
    rfl

/-! ## The line and its segments -/

/-- Whether highlighting is on or off: without colors the line is shown as it is, the texts of its
segments make up the line, and with colors it is those segments, each one as it is where its style is
the plain one, and between the sequences that switch its style on and off where it is not. -/
theorem the_colored_line_is_its_segments (enabled : Bool) (line : Text) :
    highlight enabled .plain line = line ∧
      (highlightSegments enabled line).flatMap (fun (_, content) => content) = line ∧
      highlight enabled .colored line =
        (highlightSegments enabled line).flatMap fun (style, content) =>
          if style = .plain then content else style.opening ++ content ++ Style.closing :=
  ⟨highlight_plain, flatMap_highlightSegments, highlight_colored⟩

end Typeahead
