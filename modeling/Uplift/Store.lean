-- Where files come from. Scanners and fixes only load and write
-- files through a store, whose contents are a value.
import Uplift.Error
import Uplift.Snapshot

namespace Uplift

/-- A way to load and write files over contents of type `σ`. -/
structure Store (σ : Type) where
  /-- Read a file and take the snapshot of its text. -/
  load : σ → String → Except ParseError Snapshot
  /-- Replace a file's text; the new contents, and what went wrong if something did. -/
  persist : σ → String → Text → σ × Option ApplyError

end Uplift
