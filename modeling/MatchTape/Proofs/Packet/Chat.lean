import MatchTape.Packet.Command
import MatchTape.Proofs.Bytes

/-!
# The part of a chat text that is sent

A chat text is cut as a list of units, by one more unit where the cut would tear a pair
apart.  What is left are the units of whole characters, of as many as there is room for.
-/

namespace MatchTape.Packet.Body

theorem textUnits_eq (text : String) :
    textUnits text = Text.utf16 (Text.fitting mostUnits text.toList) :=
  Text.cut_utf16 mostUnits text.toList

theorem textUnits_eq_sentText (text : String) :
    textUnits text = Text.utf16 (sentText text).toList := by
  rw [textUnits_eq, sentText, String.toList_ofList]

theorem length_textUnits_le (text : String) : (textUnits text).length ≤ mostUnits := by
  rw [textUnits_eq]
  exact Text.length_utf16_fitting_le mostUnits text.toList

theorem sentText_of_fits {text : String}
    (fits : (Text.utf16 text.toList).length ≤ mostUnits) : sentText text = text := by
  rw [sentText, Text.fitting_eq_self fits, String.ofList_toList]

theorem sentText_sentText (text : String) : sentText (sentText text) = sentText text := by
  refine sentText_of_fits ?_
  rw [← textUnits_eq_sentText]
  exact length_textUnits_le text

/-- The units that are sent of a chat text are those of the longest whole characters at its
front that take at most 255 units: well-formed units, the whole text where it fits, and
nothing is lost by cutting again. -/
theorem textUnits_longest (text : String) :
    ∃ kept : List Char,
      Text.Longest 255 text.toList kept ∧
      textUnits text = Text.utf16 kept ∧
      Text.ofUtf16? (textUnits text) = some kept ∧
      ((Text.utf16 text.toList).length ≤ 255 → kept = text.toList) ∧
      textUnits (String.ofList kept) = textUnits text := by
  have units := textUnits_eq_sentText text
  have kept : Text.Longest 255 text.toList (sentText text).toList := by
    rw [sentText, String.toList_ofList]
    exact Text.longest_fitting mostUnits text.toList
  refine ⟨(sentText text).toList, kept, units, ?_, ?_, ?_⟩
  · rw [units, Text.ofUtf16?_utf16]
  · intro fits
    rw [sentText_of_fits fits]
  · rw [String.ofList_toList, textUnits_eq_sentText (sentText text), sentText_sentText, units]

end MatchTape.Packet.Body
